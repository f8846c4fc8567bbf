import BinderTracer.App.MethodResolver

/-!
# Resolution does not depend on earlier calls

`resolution` says what a call should answer, from the environment alone. The reflection and the signature
cache never make a difference to it, whatever was asked before. The negative cache does: a package in
which one code had no method is not asked for the others for a minute. So the answers are those of a
resolver that was asked nothing before exactly if the packages that the negative cache holds at the time of
the call have no method for this code either.
-/

namespace BinderTracer.App

open BinderTracer.Lib

/-! ### The answer without caches -/

/-- What a candidate has for the code. -/
def candidateResult (env : ResolverEnv) (iface : String) (code : Int32) (callerPackage : Option String) :
    Option MethodSignature :=
  let name := env.lookupMethodName (env.loadStubTransactions iface) iface code callerPackage
  if hasPrefix "code=" name then none
  else
    let signatures := (callerPackage.bind fun pkg => env.persistentHit pkg iface).getD
      (env.loadInterfaceSignatures iface callerPackage)
    some (signatureIn signatures name)

/-- The candidates of a call; without any the framework's own classes are asked. -/
def SignatureQuery.callers (q : SignatureQuery) : List (Option String) :=
  if q.candidates = [] then [none] else q.candidates.map some

/-- The first result with a method name and parameters, or else the first with a method name. -/
def bestResult (results : List MethodSignature) : Option MethodSignature :=
  (results.find? fun sig => sig.classify = .strong).or (results.find? fun sig => sig.classify = .weak)

/-- The answer to a call. -/
def resolution (env : ResolverEnv) (q : SignatureQuery) : Option MethodSignature :=
  match q.interfaceName with
  | none => none
  | some iface => bestResult (q.callers.filterMap (candidateResult env iface q.code))

/-- The package has no method for the code. -/
def Missed (env : ResolverEnv) (iface : String) (code : Int32) (pkg : String) : Prop :=
  classOf (candidateResult env iface code (some pkg)) = .miss

namespace MethodResolver

/-! ### What the caches hold -/

/-- What is cached of classes and signatures is what would be loaded. Signatures that the persistent cache has
are not looked up here. -/
structure Coherent (env : ResolverEnv) (s : MethodResolver) : Prop where
  reflection : ∀ iface reflected, s.reflectionCache.lookup iface = some reflected →
    reflected = env.loadStubTransactions iface
  signatures : ∀ caller iface signatures, caller ≠ some "" →
    s.signatureCache.lookup (bucketOf caller, iface) = some signatures →
    (caller.bind fun pkg => env.persistentHit pkg iface) = none →
    signatures = env.loadInterfaceSignatures iface caller

/-- The negative cache holds the package for the interface, and not for longer than a minute. -/
def NegativeCached (s : MethodResolver) (iface : String) (nowMs : Int64) (pkg : String) : Prop :=
  ∃ ts, s.negativeCache.lookup (pkg, iface) = some ts ∧ ¬ nowMs - ts > negativeCacheTtlMs

variable {env : ResolverEnv} {s : MethodResolver}

/-- Different callers have different buckets, unless one is the empty name. -/
theorem bucketOf_inj {c c' : Option String} (hc : c ≠ some "") (hc' : c' ≠ some "")
    (h : bucketOf c = bucketOf c') : c = c' := by
  cases c with
  | none =>
    cases c' with
    | none => rfl
    | some pkg => exact absurd (congrArg some h.symm) hc'
  | some pkg =>
    cases c' with
    | none => exact absurd (congrArg some h) hc
    | some pkg' => exact congrArg some h

/-- Only what the persistent cache has, or what is loaded, is entered for a caller. -/
theorem Coherent.assign (h : Coherent env s) {caller : Option String} (hcaller : caller ≠ some "")
    {iface : String} (signatures : Signatures)
    (hsignatures : (caller.bind fun pkg => env.persistentHit pkg iface) = none →
      signatures = env.loadInterfaceSignatures iface caller) :
    Coherent env { s with
      signatureCache := (((s.signatureCache.get (bucketOf caller, iface)).2.assign (bucketOf caller, iface)
        signatures).evict env.maxEntries).1 } where
  reflection := h.reflection
  signatures caller' iface' signatures' hcaller' hlookup hnone := by
    rcases LruMap.lookup_of_assign (LruMap.lookup_of_evict hlookup) with ⟨hkey, rfl⟩ | hbefore
    · obtain ⟨hbucket, rfl⟩ := Prod.mk.inj hkey
      cases bucketOf_inj hcaller' hcaller hbucket
      exact hsignatures hnone
    · rw [LruMap.lookup_get] at hbefore
      exact h.signatures caller' iface' signatures' hcaller' hbefore hnone

theorem Coherent.get (h : Coherent env s) (key : String × String) :
    Coherent env { s with signatureCache := (s.signatureCache.get key).2 } where
  reflection := h.reflection
  signatures caller iface signatures hcaller hlookup hnone := by
    rw [LruMap.lookup_get] at hlookup
    exact h.signatures caller iface signatures hcaller hlookup hnone

/-- The other fields do not matter. -/
theorem Coherent.congr (h : Coherent env s) {s' : MethodResolver} (hr : s'.reflectionCache = s.reflectionCache)
    (hs : s'.signatureCache = s.signatureCache) : Coherent env s' where
  reflection := by
    rw [hr]
    exact h.reflection
  signatures := by
    rw [hs]
    exact h.signatures

/-! ### One candidate -/

theorem getMethodName_spec (h : Coherent env s) (iface : String) (code : Int32) (caller : Option String) :
    (s.getMethodName env iface code caller).1 =
        env.lookupMethodName (env.loadStubTransactions iface) iface code caller ∧
      Coherent env (s.getMethodName env iface code caller).2 ∧
      (s.getMethodName env iface code caller).2.negativeCache = s.negativeCache := by
  unfold getMethodName
  split
  · next reflected hcached =>
    rw [h.reflection iface reflected hcached]
    exact ⟨rfl, h, rfl⟩
  · refine ⟨rfl, ?_, ?_⟩
    · simp only
      split
      · exact h
      · refine ⟨?_, h.signatures⟩
        intro iface' reflected hlookup
        by_cases hiface : iface' = iface
        · subst hiface
          rw [AList.lookup_insert] at hlookup
          exact (Option.some.inj hlookup).symm
        · rw [AList.lookup_insert_ne hiface] at hlookup
          exact h.reflection iface' reflected hlookup
    · simp only
      split
      · rfl
      · rfl

theorem putSignatures_spec (h : Coherent env s) {pkg iface : String} (hpkg : pkg ≠ "")
    (hhit : env.persistentHit pkg iface ≠ none) (signatures : List MethodSignature) :
    Coherent env (signatures.foldl (putSignature env (some pkg) iface) s) ∧
      (signatures.foldl (putSignature env (some pkg) iface) s).negativeCache = s.negativeCache := by
  induction signatures generalizing s with
  | nil => exact ⟨h, rfl⟩
  | cons signature signatures ih =>
    exact ih (s := putSignature env (some pkg) iface s signature)
      (h.assign (fun heq => hpkg (Option.some.inj heq)) _ fun hnone => absurd hnone hhit)

theorem getOrLoad_spec (h : Coherent env s) {caller : Option String} (hcaller : caller ≠ some "") {iface : String}
    (hnone : (caller.bind fun pkg => env.persistentHit pkg iface) = none) :
    (s.getOrLoad env caller iface).1 = env.loadInterfaceSignatures iface caller ∧
      Coherent env (s.getOrLoad env caller iface).2 ∧
      (s.getOrLoad env caller iface).2.negativeCache = s.negativeCache := by
  have hget := h.get (bucketOf caller, iface)
  have hassign := h.assign hcaller (env.loadInterfaceSignatures iface caller) fun _ => rfl
  have hcached := LruMap.get_fst s.signatureCache (bucketOf caller, iface)
  unfold getOrLoad
  generalize s.signatureCache.get (bucketOf caller, iface) = found at hget hassign hcached ⊢
  obtain ⟨_ | signatures, store⟩ := found
  · simp only
    split
    · exact ⟨rfl, hget, rfl⟩
    · exact ⟨rfl, hassign, rfl⟩
  · exact ⟨h.signatures caller iface signatures hcaller hcached.symm hnone, hget, rfl⟩

theorem invalidateStale_frame (caller : Option String) (iface : String) :
    ∃ sent, s.invalidateStale env caller iface = { s with sent } := by
  unfold invalidateStale
  split
  · split
    · exact ⟨_, rfl⟩
    · exact ⟨_, rfl⟩
  · exact ⟨_, rfl⟩

theorem storeSignatures_frame (caller : Option String) (iface : String) (signatures : Signatures) :
    ∃ sent, s.storeSignatures env caller iface signatures = { s with sent } := by
  unfold storeSignatures
  split
  · split
    · split
      · exact ⟨_, rfl⟩
      · exact ⟨_, rfl⟩
    · exact ⟨_, rfl⟩
  · exact ⟨_, rfl⟩

/-- A candidate answers as it would without caches. -/
theorem resolveSingleCandidate_spec (h : Coherent env s) (iface : String) (code : Int32) {caller : Option String}
    (hcaller : caller ≠ some "") :
    (s.resolveSingleCandidate env iface code caller).1 = candidateResult env iface code caller ∧
      Coherent env (s.resolveSingleCandidate env iface code caller).2 ∧
      (s.resolveSingleCandidate env iface code caller).2.negativeCache = s.negativeCache := by
  obtain ⟨hname, hcoherent, hnegative⟩ := getMethodName_spec h iface code caller
  unfold resolveSingleCandidate candidateResult
  generalize s.getMethodName env iface code caller = named at hname hcoherent hnegative ⊢
  obtain ⟨name, s₁⟩ := named
  simp only at hname hcoherent hnegative ⊢
  rw [← hname, ← hnegative]
  split
  · exact ⟨rfl, hcoherent, rfl⟩
  · cases hhit : caller.bind fun pkg => env.persistentHit pkg iface with
    | some cached =>
      obtain ⟨pkg, rfl, hpkg⟩ := Option.bind_eq_some_iff.1 hhit
      obtain ⟨hput, hframe⟩ := putSignatures_spec hcoherent (fun heq => hcaller (congrArg some heq))
        (by rw [hpkg]; exact Option.some_ne_none _) (cached.entries.map Sigma.snd)
      exact ⟨rfl, hput, hframe⟩
    | none =>
      obtain ⟨sent, hstale⟩ := invalidateStale_frame (s := s₁) caller iface
      have hcoherent' : Coherent env { s₁ with sent } := hcoherent.congr rfl rfl
      obtain ⟨hload, hloaded, hframe⟩ := getOrLoad_spec hcoherent' hcaller hhit
      rw [hstale]
      generalize getOrLoad env { s₁ with sent } caller iface = loaded at hload hloaded hframe ⊢
      obtain ⟨signatures, s₂⟩ := loaded
      simp only at hload hloaded hframe ⊢
      obtain ⟨sent', hstore⟩ := storeSignatures_frame (s := s₂) caller iface signatures
      rw [hstore, hload]
      exact ⟨rfl, hloaded.congr rfl rfl, hframe⟩

/-! ### The negative cache -/

/-- Asking the negative cache says what it holds, and adds nothing to it. -/
theorem isNegativeCached_spec (h : Coherent env s) (pkg iface : String) (nowMs : Int64) :
    Coherent env (s.isNegativeCached pkg iface nowMs).2 ∧
      ((s.isNegativeCached pkg iface nowMs).1 = true ↔ NegativeCached s iface nowMs pkg) ∧
      ∀ pkg', NegativeCached (s.isNegativeCached pkg iface nowMs).2 iface nowMs pkg' →
        NegativeCached s iface nowMs pkg' := by
  have hcached := LruMap.get_fst s.negativeCache (pkg, iface)
  have hget : ∀ key, (s.negativeCache.get (pkg, iface)).2.lookup key = s.negativeCache.lookup key :=
    LruMap.lookup_get s.negativeCache (pkg, iface)
  unfold isNegativeCached NegativeCached
  rw [← hcached]
  generalize s.negativeCache.get (pkg, iface) = found at hget ⊢
  obtain ⟨_ | ts, cache⟩ := found
  · refine ⟨h.congr rfl rfl, by simp, ?_⟩
    rintro pkg' ⟨ts, hlookup, hfresh⟩
    exact ⟨ts, (hget _).symm.trans hlookup, hfresh⟩
  · simp only
    split
    · next hold =>
      refine ⟨h.congr rfl rfl, ?_, ?_⟩
      · simpa using hold
      · rintro pkg' ⟨ts', hlookup, hfresh⟩
        simp only [LruMap.lookup_drop] at hlookup
        split at hlookup
        · cases hlookup
        · exact ⟨ts', (hget _).symm.trans hlookup, hfresh⟩
    · next hfresh =>
      refine ⟨h.congr rfl rfl, iff_of_true rfl ⟨ts, rfl, hfresh⟩, ?_⟩
      rintro pkg' ⟨ts', hlookup, hfresh'⟩
      exact ⟨ts', (hget _).symm.trans hlookup, hfresh'⟩

/-- Only the package that was entered is new. -/
theorem NegativeCached.of_put {pkg pkg' iface : String} {nowMs : Int64}
    (h : NegativeCached (s.putNegativeCache pkg iface nowMs) iface nowMs pkg') :
    pkg' = pkg ∨ NegativeCached s iface nowMs pkg' := by
  obtain ⟨ts, hlookup, hfresh⟩ := h
  rcases LruMap.lookup_of_assign (LruMap.lookup_of_evict hlookup) with ⟨hkey, -⟩ | hbefore
  · exact .inl (Prod.mk.inj hkey).1
  · exact .inr ⟨ts, hbefore, hfresh⟩

theorem NegativeCached.congr {s' : MethodResolver} (hs : s'.negativeCache = s.negativeCache) {iface pkg : String}
    {nowMs : Int64} (h : NegativeCached s' iface nowMs pkg) : NegativeCached s iface nowMs pkg := by
  unfold NegativeCached at h
  rwa [hs] at h

/-! ### The loop -/

/-- What the loop makes of the candidates that are left, given the best weak result so far. -/
def bestAfter (bestWeak : Option MethodSignature) (results : List MethodSignature) : Option MethodSignature :=
  (results.find? fun sig => sig.classify = .strong).or
    (bestWeak.or (results.find? fun sig => sig.classify = .weak))

section
variable (bestWeak : Option MethodSignature) (results : List MethodSignature) {sig : MethodSignature}

theorem bestAfter_strong (h : sig.classify = .strong) : bestAfter bestWeak (sig :: results) = some sig := by
  simp [bestAfter, h]

theorem bestAfter_weak (h : sig.classify = .weak) :
    bestAfter bestWeak (sig :: results) = bestAfter (bestWeak.or (some sig)) results := by
  simp [bestAfter, h]

theorem bestAfter_miss (h : sig.classify = .miss) :
    bestAfter bestWeak (sig :: results) = bestAfter bestWeak results := by
  simp [bestAfter, h]

end

theorem some_of_classOf_ne_miss {result : Option MethodSignature} (h : classOf result ≠ .miss) :
    ∃ sig, result = some sig := by
  cases result with
  | none => exact absurd rfl h
  | some sig => exact ⟨sig, rfl⟩

/-- A candidate without a method does not count. -/
theorem bestAfter_missed {iface : String} {code : Int32} {pkg : String} (h : Missed env iface code pkg)
    (bestWeak : Option MethodSignature) (callers : List (Option String)) :
    bestAfter bestWeak ((some pkg :: callers).filterMap (candidateResult env iface code)) =
      bestAfter bestWeak (callers.filterMap (candidateResult env iface code)) := by
  rw [Missed] at h
  rw [List.filterMap_cons]
  cases hresult : candidateResult env iface code (some pkg) with
  | none => rfl
  | some sig =>
    rw [hresult] at h
    exact bestAfter_miss _ _ h

/-- The loop keeps what the caches hold, and it finds the best result where the packages that it does not ask have
no method for the code. -/
theorem candidateLoop_spec {iface : String} {code : Int32} {nowMs : Int64} (candidates : List String)
    (hnames : "" ∉ candidates) (bestWeak : Option MethodSignature) (s : MethodResolver) (h : Coherent env s) :
    let r := candidateLoop env iface code nowMs bestWeak candidates s
    Coherent env r.2 ∧
      ((∀ pkg ∈ candidates, NegativeCached s iface nowMs pkg → Missed env iface code pkg) →
        r.1 = bestAfter bestWeak ((candidates.map some).filterMap (candidateResult env iface code))) := by
  induction candidates generalizing bestWeak s with
  | nil =>
    refine ⟨h, fun _ => ?_⟩
    cases bestWeak <;> rfl
  | cons pkg candidates ih =>
    have hname : some pkg ≠ some "" := fun heq => hnames (Option.some.inj heq ▸ List.mem_cons_self)
    have hnames' : "" ∉ candidates := fun hmem => hnames (List.mem_cons_of_mem pkg hmem)
    obtain ⟨h₁, hasked, hkept⟩ := isNegativeCached_spec h pkg iface nowMs
    unfold candidateLoop
    generalize s.isNegativeCached pkg iface nowMs = asked at h₁ hasked hkept ⊢
    obtain ⟨_ | _, s₁⟩ := asked
    · obtain ⟨hresult, h₂, hframe⟩ := resolveSingleCandidate_spec h₁ iface code hname
      have hkept₂ : ∀ pkg', NegativeCached (s₁.resolveSingleCandidate env iface code (some pkg)).2 iface nowMs pkg' →
          NegativeCached s iface nowMs pkg' := fun pkg' hpkg' => hkept pkg' (hpkg'.congr hframe)
      simp only
      generalize resolveSingleCandidate env s₁ iface code (some pkg) = resolved at hresult h₂ hkept₂ ⊢
      obtain ⟨result, s₂⟩ := resolved
      change result = _ at hresult
      subst hresult
      simp only
      split
      · next hclass =>
        obtain ⟨sig, hsig⟩ := some_of_classOf_ne_miss (hclass.trans_ne (by decide))
        rw [hsig] at hclass ⊢
        refine ⟨h₂, fun _ => ?_⟩
        rw [List.map_cons, List.filterMap_cons, hsig]
        exact (bestAfter_strong _ _ hclass).symm
      · next hclass =>
        obtain ⟨sig, hsig⟩ := some_of_classOf_ne_miss (hclass.trans_ne (by decide))
        rw [hsig] at hclass ⊢
        obtain ⟨h₃, hanswer⟩ := ih hnames' (bestWeak.or (some sig)) s₂ h₂
        refine ⟨h₃, fun hharmless => ?_⟩
        rw [List.map_cons, List.filterMap_cons, hsig]
        refine (hanswer fun pkg' hpkg' hcached => ?_).trans (bestAfter_weak _ _ hclass).symm
        exact hharmless pkg' (List.mem_cons_of_mem pkg hpkg') (hkept₂ pkg' hcached)
      · next hclass =>
        obtain ⟨h₃, hanswer⟩ := ih hnames' bestWeak (s₂.putNegativeCache pkg iface nowMs) (h₂.congr rfl rfl)
        refine ⟨h₃, fun hharmless => ?_⟩
        refine (hanswer fun pkg' hpkg' hcached => ?_).trans (bestAfter_missed hclass _ _).symm
        rcases hcached.of_put with rfl | hbefore
        · exact hclass
        · exact hharmless pkg' (List.mem_cons_of_mem pkg hpkg') (hkept₂ pkg' hbefore)
    · obtain ⟨h₂, hanswer⟩ := ih hnames' bestWeak s₁ h₁
      refine ⟨h₂, fun hharmless => ?_⟩
      have hmissed := hharmless pkg List.mem_cons_self (hasked.1 rfl)
      refine (hanswer fun pkg' hpkg' hcached => ?_).trans (bestAfter_missed hmissed _ _).symm
      exact hharmless pkg' (List.mem_cons_of_mem pkg hpkg') (hkept pkg' hcached)

theorem bestResult_singleton (result : Option MethodSignature) :
    bestResult (result.toList) = result.filter fun sig => sig.classify ≠ .miss := by
  cases result with
  | none => rfl
  | some sig => cases hclass : sig.classify <;> simp [bestResult, hclass, Option.filter]

/-- One call keeps what the caches hold, and answers as it should where the packages that it does not ask have no
method for the code. -/
theorem getMethodSignature_spec {q : SignatureQuery} (hnames : "" ∉ q.candidates) (h : Coherent env s) :
    Coherent env (s.getMethodSignature env q).2 ∧
      ((∀ iface, q.interfaceName = some iface → ∀ pkg ∈ q.candidates, NegativeCached s iface q.nowMs pkg →
          Missed env iface q.code pkg) →
        (s.getMethodSignature env q).1 = resolution env q) := by
  unfold getMethodSignature resolution
  cases hiface : q.interfaceName with
  | none => exact ⟨h, fun _ => rfl⟩
  | some iface =>
    simp only
    split
    · next hempty =>
      obtain ⟨hresult, h₁, hframe⟩ := resolveSingleCandidate_spec h iface q.code (Option.some_ne_none "").symm
      refine ⟨h₁, fun _ => ?_⟩
      rw [SignatureQuery.callers, if_pos hempty, List.filterMap_cons, List.filterMap_nil]
      simp only [hresult]
      cases hresult' : candidateResult env iface q.code none with
      | none => rfl
      | some sig => exact (bestResult_singleton (some sig)).symm
    · next hsome =>
      obtain ⟨h₁, hanswer⟩ := candidateLoop_spec q.candidates hnames none s h
      rw [SignatureQuery.callers, if_neg hsome]
      exact ⟨h₁, fun hharmless => hanswer (hharmless iface rfl)⟩

/-- A package that is not asked is not found. -/
theorem getMethodSignature_cached {iface pkg : String} {nowMs : Int64} (h : Coherent env s)
    (hcached : NegativeCached s iface nowMs pkg) (code : Int32) :
    (s.getMethodSignature env ⟨some iface, code, [pkg], nowMs⟩).1 = none := by
  have hasked := (isNegativeCached_spec h pkg iface nowMs).2.1.2 hcached
  show (candidateLoop env iface code nowMs none [pkg] s).1 = none
  unfold candidateLoop
  generalize s.isNegativeCached pkg iface nowMs = asked at hasked ⊢
  obtain ⟨_ | _, s₁⟩ := asked
  · cases hasked
  · rfl

theorem missed_of_resolution {iface : String} {code : Int32} {pkg : String} {nowMs : Int64}
    (h : resolution env ⟨some iface, code, [pkg], nowMs⟩ = none) : Missed env iface code pkg := by
  change bestResult ([some pkg].filterMap (candidateResult env iface code)) = none at h
  rw [List.filterMap_cons, List.filterMap_nil] at h
  unfold Missed
  cases hresult : candidateResult env iface code (some pkg) with
  | none => rfl
  | some sig =>
    rw [hresult] at h
    have hsingle := (bestResult_singleton (some sig)).symm.trans h
    by_contra hfound
    simp [Option.filter, show sig.classify ≠ .miss from hfound] at hsingle

theorem Coherent.start : Coherent env {} where
  reflection := by rintro iface reflected ⟨⟩
  signatures := by rintro caller iface signatures - ⟨⟩

/-- The caches after any calls. -/
theorem coherent_run (history : List SignatureQuery) (hnames : ∀ call ∈ history, "" ∉ call.candidates) :
    Coherent env (run env history) := by
  induction history using List.reverseRecOn with
  | nil => exact Coherent.start
  | append_singleton history q ih =>
    have hcoherent := ih fun call hcall => hnames call (List.mem_append_left _ hcall)
    rw [run_snoc]
    exact (getMethodSignature_spec (hnames q (List.mem_append_right _ List.mem_cons_self)) hcoherent).1

end MethodResolver

/-- **Resolution does not depend on earlier calls** exactly where the packages that the negative cache holds have no
method for the code: then, and only then, every call with candidates of these is answered with the first result that
has a method name and parameters, or else the first with a method name. A new resolver always answers so. -/
theorem resolution_independent_of_history_iff (env : ResolverEnv) (history : List SignatureQuery)
    (hnames : ∀ call ∈ history, "" ∉ call.candidates) (iface : String) (code : Int32) (nowMs : Int64)
    (pkgs : List String) (hpkgs : "" ∉ pkgs) :
    ((∀ candidates ⊆ pkgs,
        ((MethodResolver.run env history).getMethodSignature env ⟨some iface, code, candidates, nowMs⟩).1 =
          resolution env ⟨some iface, code, candidates, nowMs⟩) ↔
      ∀ pkg ∈ pkgs, (MethodResolver.run env history).NegativeCached iface nowMs pkg →
        Missed env iface code pkg) ∧
    ∀ candidates ⊆ pkgs, (({} : MethodResolver).getMethodSignature env ⟨some iface, code, candidates, nowMs⟩).1 =
      resolution env ⟨some iface, code, candidates, nowMs⟩ := by
  have hcoherent := @MethodResolver.coherent_run env history hnames
  refine ⟨⟨?_, ?_⟩, ?_⟩
  · intro hright pkg hpkg hcached
    refine MethodResolver.missed_of_resolution ((hright [pkg] ?_).symm.trans
      (MethodResolver.getMethodSignature_cached hcoherent hcached code))
    exact List.cons_subset.2 ⟨hpkg, List.nil_subset _⟩
  · intro hharmless candidates hsub
    refine (MethodResolver.getMethodSignature_spec (fun hmem => hpkgs (hsub hmem)) hcoherent).2 ?_
    rintro _ ⟨⟩ pkg hpkg
    exact hharmless pkg (hsub hpkg)
  · intro candidates hsub
    refine (MethodResolver.getMethodSignature_spec (fun hmem => hpkgs (hsub hmem)) MethodResolver.Coherent.start).2 ?_
    rintro _ - pkg - ⟨ts, ⟨⟩, -⟩

/-- Packages `a` and `b` know the interface `I`: `a` has a method for the code 1, `b` for the codes 1 and 2. -/
def twoPackages : ResolverEnv where
  stubClass _ := none
  appStubClass pkg _ :=
    if pkg = "a" then some [⟨"TRANSACTION_open", true, some 1, none⟩]
    else if pkg = "b" then some [⟨"TRANSACTION_open", true, some 1, none⟩, ⟨"TRANSACTION_close", true, some 2, none⟩]
    else none
  interfaceClass _ := none
  appClass pkg _ :=
    if pkg = "a" then some [⟨"open", some ["int"], some "void"⟩]
    else if pkg = "b" then some [⟨"open", none, none⟩, ⟨"close", some ["long"], some "void"⟩]
    else none
  interfaceIndex _ := []
  staticMethodTable _ _ := none
  packageMeta _ := none
  persistentCache := none

/-- A call about the code 2 answers with the result of `b`, although `a` was missed before. -/
theorem resolution_of_close :
    ((MethodResolver.run twoPackages [⟨some "I", 2, ["a"], 1000⟩]).getMethodSignature twoPackages
      ⟨some "I", 2, ["a", "b"], 2000⟩).1 = some ⟨"close", ["long"], some "void"⟩ := by
  refine ((resolution_independent_of_history_iff twoPackages [⟨some "I", 2, ["a"], 1000⟩] (by decide) "I" 2 2000
    ["a", "b"] (by decide)).1.2 ?_ ["a", "b"] (List.Subset.refl _)).trans (by decide +kernel)
  rintro pkg hpkg ⟨ts, hlookup, -⟩
  rcases List.mem_pair.1 hpkg with rfl | rfl
  · exact (show classOf (candidateResult twoPackages "I" 2 (some "a")) = .miss by decide +kernel)
  · have hnone : (MethodResolver.run twoPackages [⟨some "I", 2, ["a"], 1000⟩]).negativeCache.lookup ("b", "I") = none := by
      decide +kernel
    rw [hnone] at hlookup
    cases hlookup

/-- After a call about the code 2, the package `a` is not asked for the code 1 for which it has a method. -/
theorem resolution_forgets_open :
    (({} : MethodResolver).getMethodSignature twoPackages ⟨some "I", 1, ["a"], 2000⟩).1 =
        some ⟨"open", ["int"], some "void"⟩ ∧
      ((MethodResolver.run twoPackages [⟨some "I", 2, ["a"], 1000⟩]).getMethodSignature twoPackages
        ⟨some "I", 1, ["a"], 2000⟩).1 = none := by
  decide +kernel

end BinderTracer.App
