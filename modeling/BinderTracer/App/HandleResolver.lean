import BinderTracer.App.BinderLogs
import BinderTracer.Lib.Runs

/-!
# Which process a handle leads to

`BinderHandleResolver`: a table of the handles of one sender, made from dumps of the binder driver by `refresh` and
looked up without waiting by `lookup`, which asks for a refresh where it finds no table that is recent and the
sender's. Any number of threads look handles up and any number of refreshes run, one of them inside the lock; a step
is what one of them does between two accesses to what they share, with anything that the shell and the clock answer.

A table belongs to one refresh, which read the dumps one after the other; whoever finds it gets what these dumps say,
or nothing (`handle_lookup_origin`).
-/

namespace BinderTracer.App

open BinderTracer.Lib

structure ResolvedTarget where
  ownerPid : Int32
  processName : String
deriving DecidableEq, Repr

namespace BinderHandleResolver

/-- `TTL_MS`. -/
def ttlMs : Int64 := 30000

def refreshTriggerCooldownMs : Int64 := 1000

inductive ShellCommand where
  | catState
  | catProc (pid : Int32)
  | catCmdline (pid : Int32)
deriving DecidableEq, Repr

/-- What the shell has answered, with the number of the refresh that asked. -/
abbrev ShellLog := List (Nat × ShellCommand × ShellResult)

/-- `CacheEntry`, with the number of the refresh that made it. -/
structure CacheEntry where
  senderPid : Int32
  createdAtMs : Int64
  handleToTarget : Table Int32 ResolvedTarget
  refresh : Nat
deriving DecidableEq

/-- Where a `refresh` is. -/
inductive RefreshStage where
  /-- Before the test of the cache. -/
  | begun
  /-- At `tryLock`. -/
  | locking
  | readingNodes
  | readingHandles (nodeToOwner : Table Int32 Int32)
  /-- In the loop over the handles, of which some are left. -/
  | resolving (nodeToOwner left : Table Int32 Int32) (pidToName : Table Int32 String)
      (resolved : Table Int32 ResolvedTarget)
  | unlocking
  | returned
deriving DecidableEq

/-- Inside the lock. -/
def RefreshStage.locked : RefreshStage → Bool
  | begun | locking | returned => false
  | readingNodes | readingHandles _ | resolving _ _ _ _ | unlocking => true

structure Refresh where
  senderPid : Int32
  stage : RefreshStage := .begun
deriving DecidableEq

/-- Where a thread is in `triggerRefreshIfDue`. -/
inductive TriggerStage where
  | reading
  /-- At `compareAndSet`. -/
  | swapping (last now : Int64)
  | returned
deriving DecidableEq

structure Trigger where
  senderPid : Int32
  stage : TriggerStage := .reading
deriving DecidableEq

/-- A `lookup` that found a table: its arguments, its reading of the clock, and what it returned. -/
structure Hit where
  senderPid : Int32
  handle : Int64
  nowMs : Int64
  target : Option ResolvedTarget
deriving DecidableEq

/-- The fields of the resolver and the mutex, the refreshes and the threads under way, and what has happened: what
the shell answered, which refreshes have published a table and when, the lookups that found one, and the times at
which a lookup launched a refresh. -/
structure State where
  cache : Option CacheEntry := none
  refreshMu : Bool := false
  lastRefreshTriggerMs : Int64 := 0
  refreshes : List Refresh := []
  triggers : List Trigger := []
  shell : ShellLog := []
  published : List (Nat × Int64) := []
  hits : List Hit := []
  launched : List Int64 := []
deriving DecidableEq

inductive Action where
  | lookup (senderPid : Int32) (handle : Int64) (nowMs : Int64)
  /-- A thread goes on in `triggerRefreshIfDue`. -/
  | trigger (i : Nat) (nowMs : Int64)
  | refreshAsync (senderPid : Int32)
  /-- A refresh goes on: the clock, what the shell answers if it is asked, and the handle that comes next in the
  loop over the handles. -/
  | refresh (i : Nat) (nowMs : Int64) (result : ShellResult) (handle : Int32)
  | invalidate

namespace State

/-- `lookup`, up to `triggerRefreshIfDue`. -/
def lookup (s : State) (senderPid : Int32) (handle : Int64) (nowMs : Int64) : State :=
  match s.cache with
  | some c =>
    if c.senderPid = senderPid ∧ nowMs - c.createdAtMs ≤ ttlMs then
      { s with hits := s.hits ++ [⟨senderPid, handle, nowMs, c.handleToTarget.lookup handle.toInt32⟩] }
    else { s with triggers := s.triggers ++ [{ senderPid }] }
  | none => { s with triggers := s.triggers ++ [{ senderPid }] }

def launch (s : State) (senderPid : Int32) : State := { s with refreshes := s.refreshes ++ [{ senderPid }] }

/-- A thread goes on to its next stage. -/
def moveTrigger (s : State) (i : Nat) (t : Trigger) (stage : TriggerStage) : State :=
  { s with triggers := s.triggers.set i { t with stage } }

/-- `triggerRefreshIfDue`. -/
def triggerStep (s : State) (i : Nat) (t : Trigger) (nowMs : Int64) : Except Blocked State :=
  match t.stage with
  | .reading =>
    if nowMs - s.lastRefreshTriggerMs < refreshTriggerCooldownMs then .ok (s.moveTrigger i t .returned)
    else .ok (s.moveTrigger i t (.swapping s.lastRefreshTriggerMs nowMs))
  | .swapping last now =>
    if s.lastRefreshTriggerMs = last then
      .ok { (s.moveTrigger i t .returned).launch t.senderPid with
            lastRefreshTriggerMs := now, launched := s.launched ++ [now] }
    else .ok (s.moveTrigger i t .returned)
  | .returned => .error .blocked

/-- A refresh goes on to its next stage. -/
def move (s : State) (i : Nat) (r : Refresh) (stage : RefreshStage) : State :=
  { s with refreshes := s.refreshes.set i { r with stage } }

/-- The shell answers a refresh. -/
def asked (s : State) (i : Nat) (command : ShellCommand) (result : ShellResult) : State :=
  { s with shell := s.shell ++ [(i, command, result)] }

/-- What a dump says; nothing if the command fails. -/
def parsed (parse : List Char → Table Int32 Int32) (result : ShellResult) : Table Int32 Int32 :=
  if result.code ≠ 0 ∨ result.out = [] then ∅ else parse result.out

/-- A round of the loop over the handles. -/
def resolveHandle (s : State) (i : Nat) (r : Refresh) (result : ShellResult) (handle nodeId : Int32)
    (nodeToOwner left : Table Int32 Int32) (pidToName : Table Int32 String) (resolved : Table Int32 ResolvedTarget) :
    State :=
  match nodeToOwner.lookup nodeId with
  | none => s.move i r (.resolving nodeToOwner (left.erase handle) pidToName resolved)
  | some ownerPid =>
    match pidToName.lookup ownerPid with
    | some name =>
      s.move i r (.resolving nodeToOwner (left.erase handle) pidToName (resolved.insert handle ⟨ownerPid, name⟩))
    | none =>
      let name := cmdlineName ownerPid result
      (s.asked i (.catCmdline ownerPid) result).move i r
        (.resolving nodeToOwner (left.erase handle) (pidToName.insert ownerPid name)
          (resolved.insert handle ⟨ownerPid, name⟩))

/-- `cache = CacheEntry(...)`. -/
def publish (s : State) (i : Nat) (r : Refresh) (nowMs : Int64) (resolved : Table Int32 ResolvedTarget) : State :=
  { s.move i r .unlocking with
    cache := some { senderPid := r.senderPid, createdAtMs := nowMs, handleToTarget := resolved, refresh := i }
    published := s.published ++ [(i, nowMs)] }

/-- `refresh`. -/
def refreshStep (s : State) (i : Nat) (r : Refresh) (nowMs : Int64) (result : ShellResult) (handle : Int32) :
    Except Blocked State :=
  match r.stage with
  | .begun =>
    if r.senderPid ≤ 0 then .ok (s.move i r .returned)
    else
      match s.cache with
      | some existing =>
        if existing.senderPid = r.senderPid ∧ nowMs - existing.createdAtMs < ttlMs / 2 then
          .ok (s.move i r .returned)
        else .ok (s.move i r .locking)
      | none => .ok (s.move i r .locking)
  | .locking =>
    if s.refreshMu then .ok (s.move i r .returned)
    else .ok { s.move i r .readingNodes with refreshMu := true }
  | .readingNodes =>
    let nodeToOwner := parsed parseNodeOwnerMap result
    let next := if nodeToOwner.entries = [] then .unlocking else .readingHandles nodeToOwner
    .ok ((s.asked i .catState result).move i r next)
  | .readingHandles nodeToOwner =>
    let handleToNode := parsed parseHandleToNode result
    let next := if handleToNode.entries = [] then .unlocking else .resolving nodeToOwner handleToNode ∅ ∅
    .ok ((s.asked i (.catProc r.senderPid) result).move i r next)
  | .resolving nodeToOwner left pidToName resolved =>
    if left.entries = [] then .ok (s.publish i r nowMs resolved)
    else
      match left.lookup handle with
      | none => .error .blocked
      | some nodeId => .ok (s.resolveHandle i r result handle nodeId nodeToOwner left pidToName resolved)
  | .unlocking => .ok { s.move i r .returned with refreshMu := false }
  | .returned => .error .blocked

/-- One action, where it is possible. -/
def step (s : State) : Action → Except Blocked State
  | .lookup senderPid handle nowMs => .ok (s.lookup senderPid handle nowMs)
  | .trigger i nowMs =>
    match s.triggers[i]? with
    | some t => s.triggerStep i t nowMs
    | none => .error .blocked
  | .refreshAsync senderPid => .ok (s.launch senderPid)
  | .refresh i nowMs result handle =>
    match s.refreshes[i]? with
    | some r => s.refreshStep i r nowMs result handle
    | none => .error .blocked
  | .invalidate => .ok { s with cache := none }

end State

/-! ### What the dumps of a refresh say -/

/-- A dump that a refresh has read, and what it says. -/
def DumpRead (shell : ShellLog) (i : Nat) (command : ShellCommand) (parse : List Char → Table Int32 Int32)
    (m : Table Int32 Int32) : Prop :=
  ∃ result, (i, command, result) ∈ shell ∧ m = State.parsed parse result

def NameRead (shell : ShellLog) (i : Nat) (pid : Int32) (name : String) : Prop :=
  ∃ result, (i, .catCmdline pid, result) ∈ shell ∧ name = cmdlineName pid result

/-- What a table says about a handle is what the two dumps of a refresh say, with names that the refresh has read. -/
structure Agrees (shell : ShellLog) (i : Nat) (senderPid handle : Int32) (target : Option ResolvedTarget) : Prop where
  owner : ∃ nodes handles, DumpRead shell i .catState parseNodeOwnerMap nodes ∧
    DumpRead shell i (.catProc senderPid) parseHandleToNode handles ∧
    target.map ResolvedTarget.ownerPid = (handles.lookup handle).bind fun node => nodes.lookup node
  name : ∀ t ∈ target, NameRead shell i t.ownerPid t.processName

/-- In the loop over the handles: those that are done are as the dumps say, those that are left have no target yet. -/
structure Resolving (shell : ShellLog) (i : Nat) (senderPid : Int32) (nodeToOwner left : Table Int32 Int32)
    (pidToName : Table Int32 String) (resolved : Table Int32 ResolvedTarget) : Prop where
  nodes : DumpRead shell i .catState parseNodeOwnerMap nodeToOwner
  handles : ∃ handles, DumpRead shell i (.catProc senderPid) parseHandleToNode handles ∧
    (∀ h node, left.lookup h = some node → handles.lookup h = some node ∧ resolved.lookup h = none) ∧
    ∀ h, left.lookup h = none →
      (resolved.lookup h).map ResolvedTarget.ownerPid = (handles.lookup h).bind fun node => nodeToOwner.lookup node
  names : ∀ pid name, pidToName.lookup pid = some name → NameRead shell i pid name
  targetNames : ∀ h t, resolved.lookup h = some t → NameRead shell i t.ownerPid t.processName

/-- What a refresh knows. -/
def StageOk (shell : ShellLog) (i : Nat) (senderPid : Int32) : RefreshStage → Prop
  | .readingHandles nodeToOwner => DumpRead shell i .catState parseNodeOwnerMap nodeToOwner
  | .resolving nodeToOwner left pidToName resolved =>
    Resolving shell i senderPid nodeToOwner left pidToName resolved
  | _ => True

section Mono
variable {shell shell' : ShellLog} {i : Nat}

theorem DumpRead.mono {command : ShellCommand} {parse : List Char → Table Int32 Int32} {m : Table Int32 Int32}
    (h : DumpRead shell i command parse m) (hsub : shell ⊆ shell') : DumpRead shell' i command parse m :=
  h.imp fun _ hr => hr.imp_left fun hmem => hsub hmem

theorem NameRead.mono {pid : Int32} {name : String} (h : NameRead shell i pid name) (hsub : shell ⊆ shell') :
    NameRead shell' i pid name :=
  h.imp fun _ hr => hr.imp_left fun hmem => hsub hmem

theorem Agrees.mono {senderPid handle : Int32} {target : Option ResolvedTarget}
    (h : Agrees shell i senderPid handle target) (hsub : shell ⊆ shell') : Agrees shell' i senderPid handle target where
  owner := by
    obtain ⟨nodes, handles, hnodes, hhandles, howner⟩ := h.owner
    exact ⟨nodes, handles, hnodes.mono hsub, hhandles.mono hsub, howner⟩
  name t ht := (h.name t ht).mono hsub

theorem Resolving.mono {senderPid : Int32} {nodeToOwner left : Table Int32 Int32} {pidToName : Table Int32 String}
    {resolved : Table Int32 ResolvedTarget} (h : Resolving shell i senderPid nodeToOwner left pidToName resolved)
    (hsub : shell ⊆ shell') : Resolving shell' i senderPid nodeToOwner left pidToName resolved where
  nodes := h.nodes.mono hsub
  handles := h.handles.imp fun _ hh => hh.imp_left fun hread => hread.mono hsub
  names pid name hname := (h.names pid name hname).mono hsub
  targetNames handle t ht := (h.targetNames handle t ht).mono hsub

theorem StageOk.mono {senderPid : Int32} {stage : RefreshStage} (h : StageOk shell i senderPid stage)
    (hsub : shell ⊆ shell') : StageOk shell' i senderPid stage := by
  cases stage with
  | readingHandles nodeToOwner => exact DumpRead.mono h hsub
  | resolving nodeToOwner left pidToName resolved => exact Resolving.mono h hsub
  | _ => trivial

end Mono

namespace Resolving

variable {shell : ShellLog} {i : Nat} {senderPid : Int32} {nodeToOwner left : Table Int32 Int32}
  {pidToName : Table Int32 String} {resolved : Table Int32 ResolvedTarget}

/-- Before the first round. -/
theorem start {handles : Table Int32 Int32} (hnodes : DumpRead shell i .catState parseNodeOwnerMap nodeToOwner)
    (hhandles : DumpRead shell i (.catProc senderPid) parseHandleToNode handles) :
    Resolving shell i senderPid nodeToOwner handles ∅ ∅ where
  nodes := hnodes
  handles := ⟨handles, hhandles, fun _ _ hh => ⟨hh, rfl⟩, fun _ hh => by rw [hh]; rfl⟩
  names pid name h := by cases h
  targetNames h t ht := by cases ht

/-- After the last round. -/
theorem agrees (h : Resolving shell i senderPid nodeToOwner left pidToName resolved) (hdone : left.entries = [])
    (handle : Int32) : Agrees shell i senderPid handle (resolved.lookup handle) where
  owner := by
    obtain ⟨handles, hread, -, hrest⟩ := h.handles
    have hempty : left = ∅ := AList.ext hdone
    have hnone : left.lookup handle = none := by rw [hempty, AList.lookup_empty]
    exact ⟨nodeToOwner, handles, h.nodes, hread, hrest handle hnone⟩
  name t ht := h.targetNames handle t ht

/-- A handle whose node has no process in the dump. -/
theorem skips (h : Resolving shell i senderPid nodeToOwner left pidToName resolved) {handle node : Int32}
    (hleft : left.lookup handle = some node) (hnode : nodeToOwner.lookup node = none) :
    Resolving shell i senderPid nodeToOwner (left.erase handle) pidToName resolved := by
  obtain ⟨handles, hread, hopen, hrest⟩ := h.handles
  refine ⟨h.nodes, ⟨handles, hread, fun k n hk => ?_, fun k hk => ?_⟩, h.names, h.targetNames⟩
  · by_cases hkh : k = handle
    · rw [hkh, AList.lookup_erase] at hk
      cases hk
    · rw [AList.lookup_erase_ne hkh] at hk
      exact hopen k n hk
  · by_cases hkh : k = handle
    · obtain ⟨hnode', hnone⟩ := hopen handle node hleft
      rw [hkh, hnode', hnone, Option.bind_some, hnode]
      rfl
    · rw [AList.lookup_erase_ne hkh] at hk
      exact hrest k hk

/-- A handle that gets a target. -/
theorem resolves (h : Resolving shell i senderPid nodeToOwner left pidToName resolved) {handle node ownerPid : Int32}
    {name : String} (hleft : left.lookup handle = some node) (hnode : nodeToOwner.lookup node = some ownerPid)
    (hname : NameRead shell i ownerPid name) :
    Resolving shell i senderPid nodeToOwner (left.erase handle) pidToName
      (resolved.insert handle ⟨ownerPid, name⟩) := by
  obtain ⟨handles, hread, hopen, hrest⟩ := h.handles
  refine ⟨h.nodes, ⟨handles, hread, fun k n hk => ?_, fun k hk => ?_⟩, h.names, fun k t ht => ?_⟩
  · by_cases hkh : k = handle
    · rw [hkh, AList.lookup_erase] at hk
      cases hk
    · rw [AList.lookup_erase_ne hkh] at hk
      rw [AList.lookup_insert_ne hkh]
      exact hopen k n hk
  · by_cases hkh : k = handle
    · rw [hkh, AList.lookup_insert, (hopen handle node hleft).1, Option.bind_some, hnode]
      rfl
    · rw [AList.lookup_erase_ne hkh] at hk
      rw [AList.lookup_insert_ne hkh]
      exact hrest k hk
  · by_cases hkh : k = handle
    · rw [hkh, AList.lookup_insert] at ht
      cases ht
      exact hname
    · rw [AList.lookup_insert_ne hkh] at ht
      exact h.targetNames k t ht

theorem remembers (h : Resolving shell i senderPid nodeToOwner left pidToName resolved) {pid : Int32} {name : String}
    (hname : NameRead shell i pid name) :
    Resolving shell i senderPid nodeToOwner left (pidToName.insert pid name) resolved := by
  refine ⟨h.nodes, h.handles, fun p n hp => ?_, h.targetNames⟩
  by_cases hpid : p = pid
  · rw [hpid, AList.lookup_insert] at hp
    cases hp
    exact hpid ▸ hname
  · rw [AList.lookup_insert_ne hpid] at hp
    exact h.names p n hp

end Resolving

/-! ### Runs -/

/-- At most one refresh is inside the lock, and only if it is taken; refreshes, the cache and the answers say what the
dumps say; and a lookup launches a refresh only after the pause. -/
structure Inv (s : State) : Prop where
  lock : s.refreshes.countP (fun r => r.stage.locked) = s.refreshMu.toNat
  stages : ∀ i r, s.refreshes[i]? = some r → StageOk s.shell i r.senderPid r.stage
  cache : ∀ c, s.cache = some c → (c.refresh, c.createdAtMs) ∈ s.published ∧
    ∀ handle, Agrees s.shell c.refresh c.senderPid handle (c.handleToTarget.lookup handle)
  hits : ∀ a ∈ s.hits, ∃ i createdAtMs, (i, createdAtMs) ∈ s.published ∧ a.nowMs - createdAtMs ≤ ttlMs ∧
    Agrees s.shell i a.senderPid a.handle.toInt32 a.target
  swapping : ∀ t ∈ s.triggers, ∀ last now, t.stage = .swapping last now → refreshTriggerCooldownMs ≤ now - last
  launched : (0 :: s.launched).IsChain fun a b => refreshTriggerCooldownMs ≤ b - a
  last : (0 :: s.launched).getLast? = some s.lastRefreshTriggerMs

namespace Inv

variable {s : State}

theorem initial : Inv {} where
  lock := rfl
  stages i r h := by cases h
  cache c h := by cases h
  hits a h := by cases h
  swapping t h := by cases h
  launched := .singleton 0
  last := rfl

theorem lookup (h : Inv s) (senderPid : Int32) (handle : Int64) (nowMs : Int64) :
    Inv (s.lookup senderPid handle nowMs) := by
  have hmiss : Inv { s with triggers := s.triggers ++ [{ senderPid }] } := by
    refine ⟨h.lock, h.stages, h.cache, h.hits, fun t ht last now hstage => ?_, h.launched, h.last⟩
    rcases List.mem_append.1 ht with ht | ht
    · exact h.swapping t ht last now hstage
    · rw [List.mem_singleton.1 ht] at hstage
      cases hstage
  unfold State.lookup
  split
  next c hcache =>
    split
    next hfresh =>
      refine ⟨h.lock, h.stages, h.cache, fun a ha => ?_, h.swapping, h.launched, h.last⟩
      rcases List.mem_append.1 ha with ha | ha
      · exact h.hits a ha
      · obtain ⟨hpublished, hagrees⟩ := h.cache c hcache
        rw [List.mem_singleton.1 ha, ← hfresh.1]
        exact ⟨c.refresh, c.createdAtMs, hpublished, hfresh.2, hagrees _⟩
    · exact hmiss
  · exact hmiss

theorem launch (h : Inv s) (senderPid : Int32) : Inv (s.launch senderPid) := by
  refine ⟨(List.countP_append ..).trans h.lock, fun i r hr => ?_, h.cache, h.hits, h.swapping, h.launched, h.last⟩
  rcases getElem?_append_cases hr with ⟨-, rfl⟩ | hr
  · trivial
  · exact h.stages i r hr

/-- A thread goes on in `triggerRefreshIfDue`. -/
theorem moveTrigger (h : Inv s) {i : Nat} {t : Trigger} {stage : TriggerStage}
    (hstage : ∀ last now, stage = .swapping last now → refreshTriggerCooldownMs ≤ now - last) :
    Inv (s.moveTrigger i t stage) := by
  refine ⟨h.lock, h.stages, h.cache, h.hits, fun t' ht' last now hswap => ?_, h.launched, h.last⟩
  rcases List.mem_or_eq_of_mem_set ht' with ht' | rfl
  · exact h.swapping t' ht' last now hswap
  · exact hstage last now hswap

theorem triggerStep (h : Inv s) {i : Nat} {t : Trigger} (ht : s.triggers[i]? = some t) {nowMs : Int64} {s' : State}
    (hstep : s.triggerStep i t nowMs = .ok s') : Inv s' := by
  have hreturns : Inv (s.moveTrigger i t .returned) := h.moveTrigger (by rintro last now ⟨⟩)
  unfold State.triggerStep at hstep
  split at hstep
  · split at hstep
    · cases hstep
      exact hreturns
    next hdue =>
      cases hstep
      refine h.moveTrigger ?_
      rintro last now ⟨⟩
      exact Int64.not_lt.1 hdue
  next last now hswap =>
    split at hstep
    next hlast =>
      cases hstep
      have hlaunched := hreturns.launch t.senderPid
      have hgap := h.swapping t (List.mem_of_getElem? ht) last now hswap
      refine ⟨hlaunched.lock, hlaunched.stages, hlaunched.cache, hlaunched.hits, hlaunched.swapping, ?_, ?_⟩
      · -- the time before is the one that the exchange found
        rw [← List.cons_append, List.isChain_append]
        refine ⟨h.launched, .singleton now, fun a ha b hb => ?_⟩
        rw [h.last] at ha
        cases ha
        cases hb
        exact hlast ▸ hgap
      · rw [← List.cons_append, List.getLast?_concat]
    · cases hstep
      exact hreturns
  · cases hstep

/-- A refresh goes on. -/
theorem moves (h : Inv s) {i : Nat} {r : Refresh} (hr : s.refreshes[i]? = some r) {stage : RefreshStage} {mu : Bool}
    {shell : ShellLog} (hsub : s.shell ⊆ shell)
    (hlock : (if stage.locked then 1 else 0) + s.refreshMu.toNat = mu.toNat + (if r.stage.locked then 1 else 0))
    (hstage : StageOk shell i r.senderPid stage) :
    Inv { s with refreshes := s.refreshes.set i { r with stage }, refreshMu := mu, shell } := by
  refine ⟨?_, fun j r' hr' => ?_, fun c hc => ?_, fun a ha => ?_, h.swapping, h.launched, h.last⟩
  · have hcount := countP_set_add (p := fun r : Refresh => r.stage.locked) hr { r with stage }
    have hbefore := h.lock
    change (s.refreshes.set i { r with stage }).countP _ = mu.toNat
    dsimp only at hcount
    omega
  · rcases getElem?_set_cases hr' with ⟨rfl, rfl⟩ | ⟨-, hr'⟩
    · exact hstage
    · exact (h.stages j r' hr').mono hsub
  · obtain ⟨hpublished, hagrees⟩ := h.cache c hc
    exact ⟨hpublished, fun handle => (hagrees handle).mono hsub⟩
  · obtain ⟨j, createdAtMs, hpublished, hfresh, hagrees⟩ := h.hits a ha
    exact ⟨j, createdAtMs, hpublished, hfresh, hagrees.mono hsub⟩

theorem publishes (h : Inv s) {i : Nat} {r : Refresh} (hr : s.refreshes[i]? = some r)
    (hlocked : r.stage.locked = true) {nowMs : Int64} {resolved : Table Int32 ResolvedTarget}
    (hagrees : ∀ handle, Agrees s.shell i r.senderPid handle (resolved.lookup handle)) :
    Inv (s.publish i r nowMs resolved) := by
  have hmoved : Inv (s.move i r .unlocking) :=
    h.moves hr (List.Subset.refl _) (by rw [hlocked]; exact Nat.add_comm _ _) trivial
  refine ⟨hmoved.lock, hmoved.stages, ?_, fun a ha => ?_, hmoved.swapping, hmoved.launched, hmoved.last⟩
  · rintro c ⟨⟩
    exact ⟨List.mem_append_right _ (List.mem_singleton_self _), hagrees⟩
  · obtain ⟨j, createdAtMs, hpublished, hrest⟩ := hmoved.hits a ha
    exact ⟨j, createdAtMs, List.mem_append_left _ hpublished, hrest⟩

/-- A round of the loop over the handles. -/
theorem resolveHandle (h : Inv s) {i : Nat} {r : Refresh} (hr : s.refreshes[i]? = some r)
    {nodeToOwner left : Table Int32 Int32} {pidToName : Table Int32 String} {resolved : Table Int32 ResolvedTarget}
    (hstage : r.stage = .resolving nodeToOwner left pidToName resolved) {handle nodeId : Int32}
    (hleft : left.lookup handle = some nodeId) (result : ShellResult) :
    Inv (s.resolveHandle i r result handle nodeId nodeToOwner left pidToName resolved) := by
  have hresolving : Resolving s.shell i r.senderPid nodeToOwner left pidToName resolved := by
    have hok := h.stages i r hr
    rwa [hstage] at hok
  have hlocked : ∀ stage : RefreshStage, stage.locked = true →
      (if stage.locked then 1 else 0) + s.refreshMu.toNat = s.refreshMu.toNat + (if r.stage.locked then 1 else 0) := by
    intro stage hlocked
    rw [hlocked, hstage]
    exact Nat.add_comm _ _
  unfold State.resolveHandle
  split
  next hnode => exact h.moves hr (List.Subset.refl _) (hlocked _ rfl) (hresolving.skips hleft hnode)
  next ownerPid hnode =>
    split
    next name hname =>
      exact h.moves hr (List.Subset.refl _) (hlocked _ rfl)
        (hresolving.resolves hleft hnode (hresolving.names ownerPid name hname))
    · have hread : NameRead (s.shell ++ [(i, .catCmdline ownerPid, result)]) i ownerPid
          (cmdlineName ownerPid result) :=
        ⟨result, List.mem_append_right _ (List.mem_singleton_self _), rfl⟩
      have hsub := List.subset_append_left s.shell [(i, ShellCommand.catCmdline ownerPid, result)]
      exact h.moves hr hsub (hlocked _ rfl) (((hresolving.mono hsub).resolves hleft hnode hread).remembers hread)

theorem refreshStep (h : Inv s) {i : Nat} {r : Refresh} (hr : s.refreshes[i]? = some r) {nowMs : Int64}
    {result : ShellResult} {handle : Int32} {s' : State}
    (hstep : s.refreshStep i r nowMs result handle = .ok s') : Inv s' := by
  have hok := h.stages i r hr
  have hsame := List.Subset.refl s.shell
  unfold State.refreshStep at hstep
  split at hstep
  next hstage =>
    have houtside : ∀ stage : RefreshStage, stage.locked = false → (StageOk s.shell i r.senderPid stage) →
        Inv (s.move i r stage) := by
      intro stage hlocked hstageOk
      refine h.moves hr hsame ?_ hstageOk
      rw [hlocked, hstage]
      exact Nat.add_comm _ _
    split at hstep
    · cases hstep
      exact houtside _ rfl trivial
    split at hstep
    · split at hstep
      · cases hstep
        exact houtside _ rfl trivial
      · cases hstep
        exact houtside _ rfl trivial
    · cases hstep
      exact houtside _ rfl trivial
  next hstage =>
    split at hstep
    · cases hstep
      refine h.moves hr hsame ?_ trivial
      rw [hstage]
      exact Nat.add_comm _ _
    next hfree =>
      cases hstep
      refine h.moves hr hsame ?_ trivial
      rw [hstage, Bool.eq_false_iff.2 hfree]
      rfl
  next hstage =>
    cases hstep
    have hsub := List.subset_append_left s.shell [(i, ShellCommand.catState, result)]
    refine h.moves hr hsub ?_ ?_
    · rw [hstage]
      split <;> exact Nat.add_comm _ _
    · split
      · trivial
      · exact ⟨result, List.mem_append_right _ (List.mem_singleton_self _), rfl⟩
  next nodeToOwner hstage =>
    cases hstep
    rw [hstage] at hok
    have hsub := List.subset_append_left s.shell [(i, ShellCommand.catProc r.senderPid, result)]
    refine h.moves hr hsub ?_ ?_
    · rw [hstage]
      split <;> exact Nat.add_comm _ _
    · split
      · trivial
      · exact .start (DumpRead.mono hok hsub) ⟨result, List.mem_append_right _ (List.mem_singleton_self _), rfl⟩
  next nodeToOwner left pidToName resolved hstage =>
    split at hstep
    next hdone =>
      cases hstep
      rw [hstage] at hok
      exact h.publishes hr (by rw [hstage]; rfl) (Resolving.agrees hok hdone)
    · split at hstep
      · cases hstep
      next nodeId hleft =>
        cases hstep
        exact h.resolveHandle hr hstage hleft result
  next hstage =>
    cases hstep
    refine h.moves hr hsame ?_ trivial
    have hlock := h.lock
    have hpos : 0 < s.refreshes.countP fun r => r.stage.locked :=
      List.countP_pos_iff.2 ⟨r, List.mem_of_getElem? hr, by rw [hstage]; rfl⟩
    have hone : s.refreshMu.toNat = 1 := by
      have hle := Bool.toNat_le s.refreshMu
      omega
    rw [hone, hstage]
    rfl
  · cases hstep

theorem step (h : Inv s) {a : Action} {s' : State} (hstep : s.step a = .ok s') : Inv s' := by
  cases a with
  | lookup senderPid handle nowMs =>
    cases hstep
    exact h.lookup senderPid handle nowMs
  | trigger i nowMs =>
    simp only [State.step] at hstep
    split at hstep
    next t ht => exact h.triggerStep ht hstep
    · cases hstep
  | refreshAsync senderPid =>
    cases hstep
    exact h.launch senderPid
  | refresh i nowMs result handle =>
    simp only [State.step] at hstep
    split at hstep
    next r hr => exact h.refreshStep hr hstep
    · cases hstep
  | invalidate =>
    cases hstep
    exact ⟨h.lock, h.stages, by rintro c ⟨⟩, h.hits, h.swapping, h.launched, h.last⟩

end Inv

/-- **Where an answer comes from**: in every interleaving of lookups, refreshes and invalidations, and whatever the
shell and the clock answer, a lookup that finds a table returns what the two dumps say that one refresh for its sender
has read, with the name that this refresh has read, and the table was published at most 30 seconds before. At most one
refresh is inside the lock, and lookups launch refreshes at least a second apart. -/
theorem handle_lookup_origin {actions : List Action} {s : State} (hrun : run State.step {} actions = .ok s) :
    (∀ a ∈ s.hits, ∃ i createdAtMs, (i, createdAtMs) ∈ s.published ∧ a.nowMs - createdAtMs ≤ ttlMs ∧
      Agrees s.shell i a.senderPid a.handle.toInt32 a.target) ∧
    s.refreshes.countP (fun r => r.stage.locked) ≤ 1 ∧
    (0 :: s.launched).IsChain fun a b => refreshTriggerCooldownMs ≤ b - a := by
  have hinv : Inv s := run_invariant (fun _ _ _ h hstep => h.step hstep) .initial hrun
  exact ⟨hinv.hits, hinv.lock ▸ Bool.toNat_le s.refreshMu, hinv.launched⟩

/-- The handle 1 of process 4578 leads to the node 7. -/
def handleOne : RefLine where
  ref := 5
  desc := ⟨1, by decide⟩
  dead := false
  node := ⟨7, by decide⟩
  rest := ⟨[], List.forall_mem_nil _⟩
  parted := by rintro c ⟨⟩

/-- A lookup finds no table and launches a refresh; once that is done, the next lookup finds its table. -/
def missThenHit : List Action :=
  [.lookup 4578 1 1000, .trigger 0 1000, .trigger 0 1000, .refresh 0 1000 ⟨0, []⟩ 0, .refresh 0 1000 ⟨0, []⟩ 0,
    .refresh 0 1000 ⟨0, "  node 7: cs 1 proc 42\n".toList⟩ 0,
    .refresh 0 1000 ⟨0, procText [.context ⟨binderName, oneLine_of_all (by decide)⟩, .ref handleOne]⟩ 0,
    .refresh 0 1000 ⟨0, ['i', 'n', 'i', 't', '\x00']⟩ 1, .refresh 0 1500 ⟨0, []⟩ 0, .lookup 4578 1 2000]

theorem handle_lookup_origin_missThenHit :
    ∃ s, run State.step {} missThenHit = .ok s ∧
      (s.hits.map fun a => (a.target.map ResolvedTarget.ownerPid)) = [some 42] ∧
      (∀ a ∈ s.hits, ∃ i createdAtMs, (i, createdAtMs) ∈ s.published ∧ a.nowMs - createdAtMs ≤ ttlMs ∧
        Agrees s.shell i a.senderPid a.handle.toInt32 a.target) ∧
      s.refreshes.countP (fun r => r.stage.locked) ≤ 1 := by
  obtain ⟨s, hrun, hhits⟩ : ∃ s, run State.step {} missThenHit = .ok s ∧
      (s.hits.map fun a => (a.target.map ResolvedTarget.ownerPid)) = [some 42] :=
    exists_of_endsIn (by decide +kernel)
  obtain ⟨horigin, hlocked, -⟩ := handle_lookup_origin hrun
  exact ⟨s, hrun, hhits, horigin, hlocked⟩

end BinderHandleResolver

end BinderTracer.App
