import BinderTracer.App.SocketServer
import BinderTracer.Lib.RelyGuarantee

/-!
# Only authenticated connections feed the repository

An operation of the session starts an event loop only after a handshake on the connection that is there, with the
token that is current; that is read off the text of the operations (`body_obeys`). So as long as no client is
accepted beside an event loop, every loop reads from a connection that is vouched for.

The event loop itself accepts clients, after a drop, without a handshake. A reconnection does so too: it does not
stop the old loop, which then reads from the new client before the handshake.
-/

namespace BinderTracer.App

open BinderTracer.Lib MonitoringSessionController SocketClient

/-! ### The text of the operations -/

/-- What an operation knows of the connection: that there is none, that one that is there is vouched for, or
nothing. -/
inductive Link where
  | down | vouched | unknown
deriving DecidableEq, Repr

/-- The states in which there is a session to go on with. -/
def MonitoringSessionState.live : MonitoringSessionState → Bool
  | connected | paused | reconnecting => true
  | _ => false

/-- A live session has a token; the token changes only while there is no connection; a handshake uses the current
one; and an event loop is not started on a connection of which nothing is known. -/
def sessionRules : Discipline MonitoringSessionState SessionFields FieldUpdate TransportCall Bool Link where
  valid state fields := state.live = true → fields.sessionToken ≠ ""
  rely state fields state' fields' := state'.live = state.live ∧ fields'.sessionToken = fields.sessionToken
  mayUpdate w fields link := (w.apply fields).sessionToken = fields.sessionToken ∨ link = .down
  mayCall
    | .handshake _ token, fields, _ => token = fields.sessionToken ∧ token ≠ ""
    | .startEventLoop, _, link => link ≠ .unknown
    | _, _, _ => True
  after
    | .disconnectSocket, _, _ => .down
    | .startServer, _, _ => .down
    | .awaitClient, true, _ => .unknown
    | .handshake _ _, true, _ => .vouched
    | _, _, link => link

theorem sessionRules_stable : sessionRules.Stable where
  trans := fun h h' => ⟨h'.1.trans h.1, h'.2.trans h.2⟩
  mayCall := by
    intro state fields state' fields' q link hrely hcall
    cases q with
    | handshake uid token => exact ⟨hcall.1.trans hrely.2.symm, hcall.2⟩
    | _ => exact hcall

theorem generateSessionToken_ne (bytes : List.Vector UInt8 16) : generateSessionToken bytes ≠ "" := by
  obtain ⟨bytes, hlength⟩ := bytes
  cases bytes with
  | nil => cases hlength
  | cons b bytes =>
    intro h
    have hlist : (b :: bytes).flatMap hexByte = [] := by simpa [generateSessionToken] using congrArg String.toList h
    simp [hexByte] at hlist

/-- The text obeys the rules, from a session state, fields and what is known of the connection. -/
abbrev Obeys (body : Body) : MonitoringSessionState → SessionFields → Link → Prop :=
  Coroutine.Obeys sessionRules FieldUpdate.apply body

theorem not_live_valid {state : MonitoringSessionState} (h : state.live = false) (fields : SessionFields) :
    sessionRules.valid state fields := by
  intro hlive
  rw [h] at hlive
  cases hlive

/-- A round of calls that need nothing ends the operation in a failure. -/
theorem fail_obeys {message : String} {next : Body} {state : MonitoringSessionState} {fields : SessionFields}
    {link : Link} (hnext : ∀ fields, Obeys next .failed fields link) :
    Obeys (fail message next) state fields link :=
  ⟨.inl rfl, hnext _⟩

theorem attempts_obeys (intervalMs : Int64) (n : Nat) {state : MonitoringSessionState} {fields : SessionFields}
    {link : Link} (hvalid : sessionRules.valid state fields) (htoken : fields.sessionToken ≠ "") :
    Obeys (attempts intervalMs n) state fields link := by
  induction n generalizing state fields link with
  | zero => exact fail_obeys fun fields => not_live_valid rfl fields
  | succ n ih =>
    have hagain : ∀ {state fields link}, sessionRules.valid state fields → fields.sessionToken ≠ "" →
        Obeys (.call (.delay intervalMs) fun _ => attempts intervalMs n) state fields link :=
      fun hvalid htoken => ⟨hvalid, trivial, fun _ _ _ hrely hvalid => ih hvalid (hrely.2 ▸ htoken)⟩
    refine ⟨hvalid, trivial, fun _ _ _ hrely hvalid => ?_⟩
    have htoken := hrely.2 ▸ htoken
    refine ⟨hvalid, trivial, fun started _ _ hrely hvalid => ?_⟩
    have htoken := hrely.2 ▸ htoken
    cases started with
    | false => exact hagain hvalid htoken
    | true =>
      refine ⟨hvalid, trivial, fun running _ _ hrely hvalid => ?_⟩
      have htoken := hrely.2 ▸ htoken
      cases running with
      | false => exact hagain hvalid htoken
      | true =>
        refine ⟨hvalid, trivial, fun connected _ _ hrely hvalid => ?_⟩
        have htoken := hrely.2 ▸ htoken
        cases connected with
        | false => exact hagain hvalid htoken
        | true =>
          refine ⟨hvalid, ⟨rfl, htoken⟩, fun accepted _ _ hrely hvalid => ?_⟩
          have htoken := hrely.2 ▸ htoken
          cases accepted with
          | false => exact hagain hvalid htoken
          | true =>
            refine ⟨hvalid, Link.noConfusion, fun _ _ _ hrely hvalid => ?_⟩
            exact fun _ => hrely.2 ▸ htoken

theorem startMonitoring_obeys (targetUid : Int32) (packageName appName : String) {state : MonitoringSessionState}
    {fields : SessionFields} (hvalid : sessionRules.valid state fields) (link : Link) :
    Obeys (startMonitoring targetUid packageName appName) state fields link := by
  -- the calls with which a failed start ends
  have htail : ∀ {state fields link} (next : Body), sessionRules.valid state fields →
      (∀ {state fields}, sessionRules.valid state fields → Obeys next state fields .down) →
      Obeys (.call .disconnectSocket fun _ => next) state fields link :=
    fun next hvalid hnext => ⟨hvalid, trivial, fun _ _ _ _ hvalid => hnext hvalid⟩
  have hstop : ∀ {state fields link}, sessionRules.valid state fields →
      Obeys (.call .stopExistingDaemon fun _ => .finish) state fields link :=
    fun hvalid => ⟨hvalid, trivial, fun _ _ _ _ hvalid => hvalid⟩
  unfold startMonitoring
  show Obeys (if _ then _ else _) state fields link
  split
  · exact hvalid
  refine ⟨.inl rfl, not_live_valid rfl _, trivial, fun _ _ _ _ hvalid => ?_⟩
  refine ⟨hvalid, trivial, fun _ _ _ _ hvalid => ?_⟩
  refine ⟨hvalid, trivial, fun _ _ _ _ hvalid => ?_⟩
  refine ⟨hvalid, trivial, fun started _ fields hrely hvalid => ?_⟩
  cases started with
  | false => exact fail_obeys fun fields => not_live_valid rfl fields
  | true =>
    -- the new token, while there is no connection
    have hnew : (FieldUpdate.newToken.apply fields).sessionToken ≠ "" := generateSessionToken_ne _
    refine ⟨.inr rfl, fun _ => hnew, trivial, fun running _ _ hrely hvalid => ?_⟩
    have htoken := hrely.2 ▸ hnew
    cases running with
    | false => exact fail_obeys fun fields => htail _ (not_live_valid rfl fields) id
    | true =>
      refine ⟨hvalid, trivial, fun connected _ _ hrely hvalid => ?_⟩
      have htoken := hrely.2 ▸ htoken
      cases connected with
      | false => exact fail_obeys fun fields => htail _ (not_live_valid rfl fields) hstop
      | true =>
        refine ⟨not_live_valid rfl _, ⟨rfl, htoken⟩, fun accepted _ _ hrely hvalid => ?_⟩
        have htoken := hrely.2 ▸ htoken
        cases accepted with
        | false => exact fail_obeys fun fields => htail _ (not_live_valid rfl fields) hstop
        | true =>
          refine ⟨hvalid, trivial, fun _ _ _ hrely hvalid => ?_⟩
          have htoken := hrely.2 ▸ htoken
          refine ⟨hvalid, Link.noConfusion, fun _ _ _ hrely hvalid => ?_⟩
          exact fun _ => hrely.2 ▸ htoken

/-- **Every operation obeys the rules**, whatever the connection is. -/
theorem body_obeys (op : Operation) {state : MonitoringSessionState} {fields : SessionFields}
    (hvalid : sessionRules.valid state fields) (link : Link) : Obeys (programs.body op) state fields link := by
  cases op with
  | startMonitoring targetUid packageName appName => exact startMonitoring_obeys _ _ _ hvalid link
  | pause =>
    cases state with
    | connected =>
      refine ⟨hvalid, trivial, fun sent _ _ hrely hvalid' => ?_⟩
      cases sent with
      | false => exact hvalid'
      | true => exact fun _ => hrely.2 ▸ hvalid rfl
    | _ => exact hvalid
  | resume =>
    cases state with
    | paused =>
      refine ⟨hvalid, trivial, fun sent _ _ hrely hvalid' => ?_⟩
      cases sent with
      | false => exact hvalid'
      | true => exact fun _ => hrely.2 ▸ hvalid rfl
    | _ => exact hvalid
  | stop =>
    have hstops : Obeys (.set .stopping <| .call .sendShutdown fun _ => .call .stopEventLoop fun _ =>
        .call .disconnectSocket fun _ => .call .stopExistingDaemon fun _ => .update .clear (.set .idle .finish))
        state fields link := by
      refine ⟨not_live_valid rfl _, trivial, fun _ _ _ _ hvalid => ?_⟩
      refine ⟨hvalid, trivial, fun _ _ _ _ hvalid => ?_⟩
      refine ⟨hvalid, trivial, fun _ _ _ _ hvalid => ?_⟩
      refine ⟨hvalid, trivial, fun _ _ _ _ hvalid => ?_⟩
      exact ⟨.inr rfl, not_live_valid rfl _⟩
    cases state with
    | idle => exact hvalid
    | _ => exact hstops
  | enterReconnecting =>
    cases state with
    | connected => exact fun _ => hvalid rfl
    | paused => exact fun _ => hvalid rfl
    | _ => exact hvalid
  | attemptReconnect maxAttempts intervalMs =>
    cases state with
    | reconnecting => exact attempts_obeys _ _ hvalid (hvalid rfl)
    | _ => exact hvalid
  | reset =>
    cases state with
    | failed => exact ⟨.inl rfl, not_live_valid rfl _⟩
    | _ => exact hvalid

/-! ### The invariant -/

/-- The frames that a loop holds were read from an authenticated connection. -/
def EventLoop.Authenticated (l : EventLoop) : Prop :=
  (∀ r ∈ l.buffer, r.Authenticated) ∧ ∀ r, l.phase = .emitting r → r.Authenticated

namespace MonitoringApp

/-- A connection that is there had a handshake with the current token. -/
def Vouched (s : MonitoringApp) : Prop :=
  ∀ conn, s.socket = some conn → s.token ≠ "" ∧ ⟨conn, conn, s.token⟩ ∈ s.handshakes

end MonitoringApp

/-- What an operation knows of the connection is so. -/
def Link.Holds (s : MonitoringApp) : Link → Prop
  | down => s.socket = none
  | vouched => s.Vouched
  | unknown => True

namespace MonitoringApp

/-- At most one operation is in a call, and what it knows suffices for the rest of its text; and every event loop
that runs has a connection that is vouched for. -/
structure Guarded (s : MonitoringApp) : Prop where
  waiting : ∀ (i : Nat) t, s.session.tasks[i]? = some t → t.begun = false → t.rest = programs.body t.program
  alone : ∀ (i j : Nat) t u, s.session.tasks[i]? = some t → s.session.tasks[j]? = some u → t.inCall = true →
    u.inCall = true → i = j
  valid : sessionRules.valid s.session.value s.session.data
  obeys : ∀ (i : Nat) t, s.session.tasks[i]? = some t → t.inCall = true →
    ∃ link : Link, link.Holds s ∧ Obeys t.rest s.session.value s.session.data link
  sent : ∀ i conn, s.sent i = some conn →
    (∃ uid token, s.pending i = some (.handshake uid token)) ∧ ∀ c, s.socket = some c → c = conn
  loops : (∃ l ∈ s.loops, l.alive = true) → s.Vouched
  frames : ∀ l ∈ s.loops, l.Authenticated
  added : ∀ x ∈ s.added, x.2.Authenticated

theorem pending_iff {s : MonitoringApp} {i : Nat} {q : TransportCall} :
    s.pending i = some q ↔ ∃ t next, s.session.tasks[i]? = some t ∧ t.begun = true ∧ t.rest = .call q next := by
  unfold pending
  constructor
  · intro h
    split at h
    · next p left q' next ht =>
      cases h
      exact ⟨_, next, ht, rfl, rfl⟩
    · cases h
  · rintro ⟨⟨p, begun, left, rest⟩, next, ht, rfl, rfl⟩
    rw [ht]

theorem inCall_of_pending {s : MonitoringApp} {i : Nat} {q : TransportCall} (h : s.pending i = some q) :
    ∃ t, s.session.tasks[i]? = some t ∧ t.inCall = true := by
  obtain ⟨t, next, ht, hbegun, hrest⟩ := pending_iff.1 h
  exact ⟨t, ht, by simp [Task.inCall, hbegun, hrest, Coroutine.pending]⟩

theorem Vouched.of_down {s : MonitoringApp} (h : s.socket = none) : s.Vouched := by
  intro conn hconn
  rw [h] at hconn
  cases hconn

theorem Vouched.mono {s s' : MonitoringApp} (h : s.Vouched)
    (hsocket : ∀ conn, s'.socket = some conn → s.socket = some conn) (htoken : s'.token = s.token)
    (hhandshakes : s.handshakes ⊆ s'.handshakes) : s'.Vouched := by
  intro conn hconn
  rw [htoken]
  obtain ⟨hne, hmem⟩ := h conn (hsocket conn hconn)
  exact ⟨hne, hhandshakes hmem⟩

/-- What is left of the invariant while operation `i` goes on. -/
structure Between (i : Nat) (s : MonitoringApp) : Prop where
  waiting : ∀ (i : Nat) t, s.session.tasks[i]? = some t → t.begun = false → t.rest = programs.body t.program
  others : ∀ (j : Nat) t, j ≠ i → s.session.tasks[j]? = some t → t.inCall = false
  sent : ∀ j, s.sent j = none
  loops : (∃ l ∈ s.loops, l.alive = true) → s.Vouched
  frames : ∀ l ∈ s.loops, l.Authenticated
  added : ∀ x ∈ s.added, x.2.Authenticated

/-- **The segment of an operation**: it runs up to its next call. -/
theorem Between.segment {s : MonitoringApp} {i : Nat} (h : Between i s) (p : Operation) (first : Bool)
    (left : MonitoringSessionState) {co : Body} {link : Link} (hlink : link.Holds s)
    (hobeys : Obeys co s.session.value s.session.data link) :
    Guarded { s with session := s.session.move programs i p first left co } := by
  let seg := co.advance FieldUpdate.apply left s.session.value s.session.data
  obtain ⟨hrest, hvalid⟩ := Coroutine.advance_obeys hobeys left
  have htoken : link ≠ .down → seg.data.sessionToken = s.session.data.sessionToken := by
    intro hne
    have hkeeps : ∀ w d, sessionRules.mayUpdate w d link → (w.apply d).sessionToken = d.sessionToken :=
      fun w d hmay => hmay.resolve_right hne
    exact Coroutine.advance_guarantee (G := fun d d' => d'.sessionToken = d.sessionToken) (fun _ => rfl)
      (by intro _ _ _ h h'; exact h'.trans h) hkeeps hobeys left
  have hvouched : s.Vouched → Vouched { s with session := s.session.move programs i p first left co } := by
    intro hs
    by_cases hdown : link = .down
    · subst hdown
      exact Vouched.of_down hlink
    · exact hs.mono (fun _ => id) (htoken hdown) (List.Subset.refl _)
  have hnotBegun : ∀ (j : Nat) t, (s.session.move programs i p first left co).tasks[j]? = some t → j ≠ i →
      s.session.tasks[j]? = some t := by
    intro j t ht hne
    rcases getElem?_set_cases ht with ⟨rfl, -⟩ | ⟨-, hold⟩
    · exact absurd rfl hne
    · exact hold
  refine ⟨fun j t ht hbegun => ?_, fun j k t u ht hu hcall hcall' => ?_, hvalid, fun j t ht hcall => ?_,
    fun j conn hsent => ?_, fun hloop => hvouched (h.loops hloop), h.frames, h.added⟩
  · rcases getElem?_set_cases ht with ⟨-, rfl⟩ | ⟨-, hold⟩
    · cases hbegun
    · exact h.waiting j t hold hbegun
  · have hme : ∀ (j : Nat) t, (s.session.move programs i p first left co).tasks[j]? = some t → t.inCall = true →
        j = i := by
      intro j t ht hcall
      by_contra hne
      rw [h.others j t hne (hnotBegun j t ht hne)] at hcall
      cases hcall
    rw [hme j t ht hcall, hme k u hu hcall']
  · rcases getElem?_set_cases ht with ⟨rfl, rfl⟩ | ⟨hne, hold⟩
    · refine ⟨link, ?_, hrest⟩
      cases link with
      | down => exact hlink
      | vouched => exact hvouched hlink
      | unknown => trivial
    · rw [h.others j t hne hold] at hcall
      cases hcall
  · have hnone := h.sent j
    rw [show s.sent j = some conn from hsent] at hnone
    cases hnone

namespace Guarded

variable {s : MonitoringApp}

/-- Only the operation in the call may wait for an acknowledgement, and then it is in a handshake. -/
theorem eq_of_sent (h : Guarded s) {i j conn : Nat} {q : TransportCall} (hpending : s.pending i = some q)
    (hsent : s.sent j = some conn) : j = i ∧ ∃ uid token, q = .handshake uid token := by
  obtain ⟨⟨uid, token, hj⟩, -⟩ := h.sent j conn hsent
  obtain ⟨t, ht, htc⟩ := inCall_of_pending hpending
  obtain ⟨u, hu, huc⟩ := inCall_of_pending hj
  obtain rfl := h.alone i j t u ht hu htc huc
  rw [hpending] at hj
  exact ⟨rfl, uid, token, Option.some.inj hj⟩

theorem sent_eq_none (h : Guarded s) {i : Nat} {q : TransportCall} (hpending : s.pending i = some q)
    (hq : ∀ uid token, q ≠ .handshake uid token) (j : Nat) : s.sent j = none := by
  by_contra hsome
  obtain ⟨conn, hconn⟩ := Option.ne_none_iff_exists'.1 hsome
  obtain ⟨-, uid, token, hcall⟩ := h.eq_of_sent hpending hconn
  exact hq uid token hcall

/-- Nobody waits once the handshake has been answered. -/
theorem unsent (h : Guarded s) {i : Nat} {q : TransportCall} (hpending : s.pending i = some q) (j : Nat) :
    Function.update s.sent i none j = none := by
  by_cases hj : j = i
  · rw [hj, Function.update_self]
  · rw [Function.update_of_ne hj]
    by_contra hsome
    obtain ⟨conn, hconn⟩ := Option.ne_none_iff_exists'.1 hsome
    exact hj (h.eq_of_sent hpending hconn).1

/-- While operation `i` is in a call, no other is. -/
theorem others (h : Guarded s) {i : Nat} {q : TransportCall} (hpending : s.pending i = some q) (j : Nat)
    (t : Task Operation MonitoringSessionState SessionFields FieldUpdate TransportCall Bool) (hne : j ≠ i)
    (ht : s.session.tasks[j]? = some t) : t.inCall = false := by
  by_contra hcall
  obtain ⟨u, hu, huc⟩ := inCall_of_pending hpending
  exact hne (h.alone j i t u ht hu (by simpa using hcall) huc)

/-- The operation in the call knows what it needs. -/
theorem link_of_pending (h : Guarded s) {i : Nat} {q : TransportCall} (hpending : s.pending i = some q) :
    ∃ link : Link, link.Holds s ∧ sessionRules.mayCall q s.session.data link ∧
      ∀ t next, s.session.tasks[i]? = some t → t.rest = .call q next → ∀ a,
        Obeys (next a) s.session.value s.session.data (sessionRules.after q a link) := by
  obtain ⟨t, next, ht, hbegun, hrest⟩ := pending_iff.1 hpending
  have hcall : t.inCall = true := by simp [Task.inCall, hbegun, hrest, Coroutine.pending]
  obtain ⟨link, hlink, hobeys⟩ := h.obeys i t ht hcall
  rw [hrest] at hobeys
  refine ⟨link, hlink, hobeys.2.1, fun t' next' ht' hrest' a => ?_⟩
  rw [ht] at ht'
  cases ht'
  rw [hrest] at hrest'
  cases hrest'
  exact hobeys.2.2 a _ _ ⟨rfl, rfl⟩ h.valid

theorem beginsOperation (h : Guarded s) (hquiet : ∀ t ∈ s.session.tasks, t.inCall = false) {i : Nat}
    {s' : MonitoringApp} (hstep : s.sessionStep (.begin i) = .ok s') : Guarded s' := by
  unfold sessionStep at hstep
  split at hstep
  · next session hbegin =>
    cases hstep
    obtain ⟨t, ht, hbegun, rfl⟩ := Machine.begin_ok hbegin
    have hbetween : Between i s := by
      refine ⟨h.waiting, fun j u _ hu => hquiet u (List.mem_of_getElem? hu), fun j => ?_, h.loops, h.frames,
        h.added⟩
      by_contra hsome
      obtain ⟨conn, hconn⟩ := Option.ne_none_iff_exists'.1 hsome
      obtain ⟨⟨uid, token, hj⟩, -⟩ := h.sent j conn hconn
      obtain ⟨u, hu, huc⟩ := inCall_of_pending hj
      rw [hquiet u (List.mem_of_getElem? hu)] at huc
      cases huc
    refine hbetween.segment t.program true _ (show Link.unknown.Holds s from trivial) ?_
    rw [h.waiting i t ht hbegun]
    exact body_obeys t.program h.valid .unknown
  · cases hstep

theorem cancelLoops_frames (hframes : ∀ l ∈ s.loops, l.Authenticated) :
    ∀ l ∈ s.cancelLoops.loops, l.Authenticated := by
  intro l hl
  obtain ⟨l', hl', rfl⟩ := List.mem_map.1 hl
  exact hframes l' hl'

theorem alive_of_cancelLoops (h : ∃ l ∈ s.cancelLoops.loops, l.alive = true) : ∃ l ∈ s.loops, l.alive = true := by
  obtain ⟨l, hl, halive⟩ := h
  obtain ⟨l', hl', rfl⟩ := List.mem_map.1 hl
  exact ⟨l', hl', halive⟩

/-- **What a call does**: it leaves the operation with what the rules say that it knows. -/
theorem transports (h : Guarded s) {i : Nat} {q : TransportCall} (hpending : s.pending i = some q) {result : Bool}
    (haccept : q = .awaitClient → result = true → ∀ l ∈ s.loops, l.alive = false) {link : Link}
    (hlink : link.Holds s) (hmay : sessionRules.mayCall q s.session.data link) {s' : MonitoringApp}
    (hok : s.transport i result q = .ok s') :
    s'.session = s.session ∧ Between i s' ∧ (sessionRules.after q result link).Holds s' := by
  have hothers := h.others hpending
  have hsent := h.sent_eq_none hpending
  -- a call that does nothing to the socket
  have hplain : (∀ uid token, q ≠ .handshake uid token) → Between i s :=
    fun hq => ⟨h.waiting, hothers, hsent hq, h.loops, h.frames, h.added⟩
  cases q with
  | disconnectSocket =>
    cases hok
    exact ⟨rfl, ⟨h.waiting, hothers, hsent (by simp), fun _ => Vouched.of_down rfl, h.frames, h.added⟩, rfl⟩
  | startServer =>
    cases hok
    exact ⟨rfl, ⟨h.waiting, hothers, hsent (by simp), fun _ => Vouched.of_down rfl, h.frames, h.added⟩, rfl⟩
  | awaitClient =>
    cases result with
    | false =>
      cases hok
      exact ⟨rfl, hplain (by simp), hlink⟩
    | true =>
      simp only [transport, Bool.not_true, Bool.false_eq_true, if_false] at hok
      split at hok
      · cases hok
        refine ⟨rfl, ⟨h.waiting, hothers, hsent (by simp), fun halive => ?_, h.frames, h.added⟩, trivial⟩
        obtain ⟨l, hl, halive⟩ := halive
        rw [haccept rfl rfl l hl] at halive
        cases halive
      · cases hok
  | handshake uid token =>
    cases result with
    | true => cases hok
    | false =>
      cases hok
      have hnone : ∀ j, Function.update s.sent i none j = none := h.unsent hpending
      refine ⟨rfl, ⟨h.waiting, hothers, hnone, h.loops, h.frames, h.added⟩, ?_⟩
      cases link <;> exact hlink
  | startEventLoop =>
    cases hok
    have hvouched : s.Vouched := by
      cases link with
      | down => exact Vouched.of_down hlink
      | vouched => exact hlink
      | unknown => exact absurd rfl hmay
    refine ⟨rfl, ⟨h.waiting, hothers, hsent (by simp), fun _ => hvouched, fun l hl => ?_, h.added⟩, ?_⟩
    · rcases List.mem_append.1 hl with hl | hl
      · exact cancelLoops_frames h.frames l hl
      · rw [List.mem_singleton.1 hl]
        exact ⟨fun r hr => absurd hr List.not_mem_nil, fun r hr => by cases hr⟩
    · cases link <;> exact hlink
  | stopEventLoop =>
    cases hok
    refine ⟨rfl, ⟨h.waiting, hothers, hsent (by simp), fun halive => h.loops (alive_of_cancelLoops halive),
      cancelLoops_frames h.frames, h.added⟩, ?_⟩
    cases link <;> exact hlink
  | _ =>
    cases hok
    exact ⟨rfl, hplain (by simp), hlink⟩

/-- The operation goes on after its call. -/
theorem answers {s' : MonitoringApp} {i : Nat} {q : TransportCall} (hpending : s.pending i = some q)
    (hsession : s'.session = s.session) (hbetween : Between i s') {link : Link} {result : Bool}
    (hlink : link.Holds s')
    (hnext : ∀ t next, s.session.tasks[i]? = some t → t.rest = .call q next →
      Obeys (next result) s.session.value s.session.data link) {s'' : MonitoringApp}
    (hstep : s'.sessionStep (.answer i result) = .ok s'') : Guarded s'' := by
  unfold sessionStep at hstep
  split at hstep
  · next session hanswer =>
    cases hstep
    obtain ⟨t, q', next, ht, hbegun, hrest, rfl⟩ := Machine.answer_ok hanswer
    rw [hsession] at ht
    have hq : s.pending i = some q' := pending_iff.2 ⟨t, next, ht, hbegun, hrest⟩
    rw [hpending] at hq
    cases hq
    refine hbetween.segment t.program false t.left hlink ?_
    rw [hsession]
    exact hnext t next ht hrest
  · cases hstep

theorem answersCall (h : Guarded s) {i : Nat} {result : Bool}
    (haccept : s.pending i = some .awaitClient → result = true → ∀ l ∈ s.loops, l.alive = false)
    {s' : MonitoringApp} (hstep : s.answer i result = .ok s') : Guarded s' := by
  unfold answer at hstep
  split at hstep
  · next q hpending =>
    split at hstep
    · next between hok =>
      obtain ⟨link, hlink, hmay, hnext⟩ := h.link_of_pending hpending
      have haccept' : q = .awaitClient → result = true → ∀ l ∈ s.loops, l.alive = false :=
        fun hq => haccept (hq ▸ hpending)
      obtain ⟨hsession, hbetween, hafter⟩ := h.transports hpending haccept' hlink hmay hok
      exact answers hpending hsession hbetween hafter (fun t next ht hrest => hnext t next ht hrest result) hstep
    · cases hstep
  · cases hstep

/-- An acknowledgement with the expected token vouches for the connection. -/
theorem acknowledges (h : Guarded s) {i sentOn conn : Nat} {uid : Int32} {token : String}
    (hpending : s.pending i = some (.handshake uid token)) (hsent : s.sent i = some sentOn)
    (hsocket : s.socket = some conn) {s' : MonitoringApp}
    (hstep : (s.acknowledge i sentOn conn token).sessionStep (.answer i true) = .ok s') : Guarded s' := by
  obtain ⟨link, -, ⟨htoken, hne⟩, hnext⟩ := h.link_of_pending hpending
  obtain rfl : conn = sentOn := (h.sent i sentOn hsent).2 conn hsocket
  have hvouched : (s.acknowledge i conn conn token).Vouched := by
    intro c hc
    rw [show s.socket = some c from hc] at hsocket
    cases hsocket
    rw [show (s.acknowledge i conn conn token).token = token from htoken.symm]
    exact ⟨hne, List.mem_append_right _ (List.mem_singleton_self _)⟩
  have hbetween : Between i (s.acknowledge i conn conn token) :=
    ⟨h.waiting, h.others hpending, h.unsent hpending, fun _ => hvouched, h.frames, h.added⟩
  have hsession : (s.acknowledge i conn conn token).session = s.session := rfl
  have hlink : Link.vouched.Holds (s.acknowledge i conn conn token) := hvouched
  exact answers hpending hsession hbetween hlink (fun t next ht hrest => hnext t next ht hrest true) hstep

/-- Another session, with no more operations in a call, that has done what others may do. -/
theorem of_session (h : Guarded s) {session : Session}
    (hkept : ∀ (j : Nat) t, s.session.tasks[j]? = some t → session.tasks[j]? = some t)
    (hnew : ∀ (j : Nat) t, session.tasks[j]? = some t → s.session.tasks[j]? = some t ∨
      (t.inCall = false ∧ (t.begun = false → t.rest = programs.body t.program)))
    (hrely : sessionRules.rely s.session.value s.session.data session.value session.data)
    (hvalid : sessionRules.valid session.value session.data) : Guarded { s with session } := by
  have hold : ∀ (j : Nat) t, session.tasks[j]? = some t → t.inCall = true → s.session.tasks[j]? = some t := by
    intro j t ht hcall
    rcases hnew j t ht with hold | ⟨hnot, -⟩
    · exact hold
    · rw [hnot] at hcall
      cases hcall
  have hvouched : s.Vouched → Vouched { s with session } :=
    fun hs => hs.mono (fun _ => id) hrely.2 (List.Subset.refl _)
  refine ⟨fun j t ht hbegun => ?_, fun j k t u ht hu hcall hcall' => ?_, hvalid, fun j t ht hcall => ?_,
    fun j conn hsent => ?_, fun halive => hvouched (h.loops halive), h.frames, h.added⟩
  · rcases hnew j t ht with hold | ⟨-, hwaiting⟩
    · exact h.waiting j t hold hbegun
    · exact hwaiting hbegun
  · exact h.alone j k t u (hold j t ht hcall) (hold k u hu hcall') hcall hcall'
  · obtain ⟨link, hlink, hobeys⟩ := h.obeys j t (hold j t ht hcall) hcall
    refine ⟨link, ?_, ?_⟩
    · cases link with
      | down => exact hlink
      | vouched => exact hvouched hlink
      | unknown => trivial
    · obtain ⟨p, begun, left, rest⟩ := t
      cases rest with
      | call q next => exact hobeys.of_rely sessionRules_stable hrely hvalid
      | _ => simp [Task.inCall, Coroutine.pending] at hcall
  · obtain ⟨⟨uid, token, hpending⟩, hsocket⟩ := h.sent j conn hsent
    obtain ⟨t, next, ht, hbegun, hrest⟩ := pending_iff.1 hpending
    exact ⟨⟨uid, token, pending_iff.2 ⟨t, next, hkept j t ht, hbegun, hrest⟩⟩, hsocket⟩

theorem issues (h : Guarded s) {op : Operation} {s' : MonitoringApp} (hstep : s.sessionStep (.issue op) = .ok s') :
    Guarded s' := by
  simp only [sessionStep, Machine.step] at hstep
  split at hstep
  · next session hissue =>
    cases hstep
    split at hissue
    · cases hissue
    · cases hissue
      refine h.of_session (fun j t ht => ?_) (fun j t ht => ?_) ⟨rfl, rfl⟩ h.valid
      · exact (List.getElem?_append_left (List.getElem?_eq_some_iff.1 ht).1).trans ht
      · rcases getElem?_append_cases ht with ⟨-, rfl⟩ | hold
        · exact .inr ⟨rfl, fun _ => rfl⟩
        · exact .inl hold
  · cases hstep

/-- An operation that runs in its caller ends there, and does what others may do. -/
theorem synchronous_rely {op : Operation} (hsync : programs.synchronous op = true) (state : MonitoringSessionState)
    (fields : SessionFields) :
    let seg := (programs.body op).advance FieldUpdate.apply state state fields
    seg.rest = .finish ∧ sessionRules.rely state fields seg.value seg.data := by
  cases op with
  | enterReconnecting => cases state <;> exact ⟨rfl, rfl, rfl⟩
  | reset => cases state <;> exact ⟨rfl, rfl, rfl⟩
  | startMonitoring | pause | resume | stop | attemptReconnect => cases hsync

theorem performs (h : Guarded s) {op : Operation} {s' : MonitoringApp}
    (hstep : s.sessionStep (.perform op) = .ok s') : Guarded s' := by
  simp only [sessionStep, Machine.step] at hstep
  split at hstep
  · next session hperform =>
    cases hstep
    split at hperform
    · next hsync =>
      obtain ⟨t, ht, -, rfl⟩ := Machine.begin_ok hperform
      obtain rfl := Option.some.inj (ht.symm.trans (Machine.launched programs s.session op))
      obtain ⟨hfinish, hrely⟩ := synchronous_rely hsync s.session.value s.session.data
      have hvalid : sessionRules.valid _ _ :=
        (Coroutine.advance_obeys (body_obeys op h.valid .unknown) s.session.value).2
      refine h.of_session (fun j u hu => ?_) (fun j u hu => ?_) hrely hvalid
      · have hj : j < s.session.tasks.length := (List.getElem?_eq_some_iff.1 hu).1
        refine (List.getElem?_set_ne (Nat.ne_of_gt hj)).trans ?_
        exact (List.getElem?_append_left hj).trans hu
      · rcases getElem?_set_cases hu with ⟨-, rfl⟩ | ⟨hne, hold⟩
        · refine .inr ⟨?_, fun hbegun => by cases hbegun⟩
          have hidle := congrArg (fun rest => (Coroutine.pending rest).isSome) hfinish
          exact hidle
        · rcases getElem?_append_cases hold with ⟨hlast, -⟩ | hold
          · exact absurd hlast hne
          · exact .inl hold
    · cases hperform
  · cases hstep

theorem sends (h : Guarded s) {i : Nat} {s' : MonitoringApp} (hstep : s.sendSetTarget i = .ok s') : Guarded s' := by
  unfold sendSetTarget at hstep
  split at hstep
  · next uid token conn hpending hnone hsocket =>
    cases hstep
    refine ⟨h.waiting, h.alone, h.valid, h.obeys, fun j c hj => ?_, h.loops, h.frames, h.added⟩
    have hj : Function.update s.sent i (some conn) j = some c := hj
    by_cases hji : j = i
    · subst hji
      rw [Function.update_self] at hj
      cases hj
      refine ⟨⟨uid, token, hpending⟩, fun c hc => ?_⟩
      exact Option.some.inj (hc.symm.trans hsocket)
    · rw [Function.update_of_ne hji] at hj
      exact h.sent j c hj
  · cases hstep

theorem readsAck (h : Guarded s) {decodeUtf8 : List UInt8 → String} {i : Nat} {frame : Frame} {s' : MonitoringApp}
    (hstep : s.readAck decodeUtf8 i frame = .ok s') : Guarded s' := by
  have hrefused : s.answer i false = .ok s' → Guarded s' := h.answersCall fun _ hfalse => by cases hfalse
  unfold readAck at hstep
  split at hstep
  · next uid token sentOn conn hpending hsent hsocket =>
    split at hstep
    · split at hstep
      · exact h.acknowledges hpending hsent hsocket hstep
      · exact hrefused hstep
      · cases hstep
    · split at hstep
      · exact hrefused hstep
      · cases hstep
        exact h
  · cases hstep

/-! The event loops. -/

/-- A loop that goes on keeps the invariant if it was running and holds frames that are authenticated. -/
theorem of_loop (h : Guarded s) {j : Nat} {l l' : EventLoop} (hl : s.loops[j]? = some l)
    (halive : l'.alive = true → l.alive = true) (hframes : l'.Authenticated) :
    Guarded { s with loops := s.loops.set j l' } := by
  refine ⟨h.waiting, h.alone, h.valid, h.obeys, h.sent, ?_, fun m hm => ?_, h.added⟩
  · rintro ⟨m, hm, hrunning⟩
    rcases List.mem_or_eq_of_mem_set hm with hm | rfl
    · exact h.loops ⟨m, hm, hrunning⟩
    · exact h.loops ⟨l, List.mem_of_getElem? hl, halive hrunning⟩
  · rcases List.mem_or_eq_of_mem_set hm with hm | rfl
    · exact h.frames m hm
    · exact hframes

/-- The move of a loop that emits nothing new. -/
theorem movesLoop (h : Guarded s) {j : Nat} {l : EventLoop} (hl : s.loops[j]? = some l) (halive : l.alive = true)
    {phase : LoopPhase} (hphase : ∀ r, phase = .emitting r → r.Authenticated) : Guarded (s.moveLoop j l phase) :=
  h.of_loop hl (fun _ => halive) ⟨(h.frames l (List.mem_of_getElem? hl)).1, hphase⟩

theorem closesClient (h : Guarded s) : Guarded s.closeClient := by
  refine ⟨h.waiting, h.alone, h.valid, fun i t ht hcall => ?_, fun i conn hsent => ?_, fun _ => .of_down rfl,
    h.frames, h.added⟩
  · obtain ⟨link, -, hobeys⟩ := h.obeys i t ht hcall
    refine ⟨link, ?_, hobeys⟩
    cases link with
    | down => rfl
    | vouched => exact .of_down rfl
    | unknown => trivial
  · exact ⟨(h.sent i conn hsent).1, fun c hc => by cases hc⟩

/-- **A step of an event loop**: what it reads is authenticated, as the connection is vouched for. -/
theorem loopSteps (h : Guarded s) {j : Nat} {l : EventLoop} (hl : s.loops[j]? = some l) {a : LoopAction}
    (haccept : a ≠ .accept) {s' : MonitoringApp} (hstep : s.loopStep j l a = .ok s') : Guarded s' := by
  have halive : ∀ {phase}, l.phase = phase → phase ≠ .ended → l.alive = true := by
    rintro _ rfl hne
    exact decide_eq_true hne
  cases a with
  | check =>
    simp only [loopStep] at hstep
    split at hstep
    · cases hstep
    · next htop =>
      have hrunning := halive (not_not.1 htop) LoopPhase.noConfusion
      split at hstep
      · cases hstep
        exact h.movesLoop hl hrunning fun r hr => by cases hr
      · cases hstep
        refine h.movesLoop hl hrunning fun r hr => ?_
        split at hr <;> cases hr
  | accept => exact absurd rfl haccept
  | timeout =>
    simp only [loopStep] at hstep
    split at hstep
    · next hphase =>
      cases hstep
      exact h.movesLoop hl (halive hphase LoopPhase.noConfusion) fun r hr => by cases hr
    · cases hstep
  | read frame =>
    simp only [loopStep] at hstep
    split at hstep
    · next conn hphase hsocket =>
      cases hstep
      have hrunning := halive hphase LoopPhase.noConfusion
      refine h.movesLoop hl hrunning fun r hr => ?_
      cases hr
      exact h.loops ⟨l, List.mem_of_getElem? hl, hrunning⟩ conn hsocket
    · cases hstep
  | readFails =>
    simp only [loopStep] at hstep
    split at hstep
    · next hphase =>
      cases hstep
      exact h.closesClient.movesLoop hl (halive hphase LoopPhase.noConfusion) fun r hr => by cases hr
    · cases hstep
  | emit =>
    simp only [loopStep] at hstep
    split at hstep
    · next r hphase =>
      have hrunning := halive hphase LoopPhase.noConfusion
      cases hstep
      split
      · exact h.movesLoop hl hrunning fun r hr => by cases hr
      · obtain ⟨hbuffer, hemitting⟩ := h.frames l (List.mem_of_getElem? hl)
        refine h.of_loop hl (fun _ => hrunning) ⟨fun r' hr' => ?_, fun r hr => by cases hr⟩
        rcases List.mem_append.1 hr' with hr' | hr'
        · exact hbuffer r' hr'
        · rw [List.mem_singleton.1 hr']
          exact hemitting r hphase
    · cases hstep

theorem collects (h : Guarded s) (decodeUtf8 : List UInt8 → String) {j : Nat} {l : EventLoop}
    (hl : s.loops[j]? = some l) {r : ReadFrame} {buffer : List ReadFrame} (hbuffer : l.buffer = r :: buffer) :
    Guarded (s.collect decodeUtf8 j l r buffer) := by
  obtain ⟨hframes, hphase⟩ := h.frames l (List.mem_of_getElem? hl)
  rw [hbuffer] at hframes
  have hrest : Guarded { s with loops := s.loops.set j { l with buffer } } :=
    h.of_loop hl id ⟨fun r' hr' => hframes r' (List.mem_cons_of_mem _ hr'), hphase⟩
  unfold collect
  split
  · split
    · next event _ =>
      refine ⟨hrest.waiting, hrest.alone, hrest.valid, hrest.obeys, hrest.sent, hrest.loops, hrest.frames, ?_⟩
      intro x hx
      rcases List.mem_append.1 hx with hx | hx
      · exact h.added x hx
      · rw [List.mem_singleton.1 hx]
        exact hframes r List.mem_cons_self
    · exact hrest
    · exact h.of_loop hl id ⟨fun r' hr' => absurd hr' List.not_mem_nil, hphase⟩
  · exact hrest

end Guarded

/-- Operations do not overlap, and no client is accepted while an event loop is running. -/
def Orderly (s : MonitoringApp) : AppAction → Prop
  | .begin _ => ∀ t ∈ s.session.tasks, t.inCall = false
  | .answer i true => s.pending i = some .awaitClient → ∀ l ∈ s.loops, l.alive = false
  | .loop _ a => a ≠ .accept
  | _ => True

instance (s : MonitoringApp) (a : AppAction) : Decidable (Orderly s a) := by
  unfold Orderly
  split <;> infer_instance

theorem guarded_initial (random : Nat → List.Vector UInt8 16) : Guarded (initial random) where
  waiting := fun i t ht => by cases ht
  alone := fun i j t u ht => by cases ht
  valid := not_live_valid rfl _
  obeys := fun i t ht => by cases ht
  sent := fun i conn hsent => by cases hsent
  loops := fun _ => .of_down rfl
  frames := fun l hl => absurd hl List.not_mem_nil
  added := fun x hx => absurd hx List.not_mem_nil

theorem Guarded.step {s s' : MonitoringApp} (h : Guarded s) {decodeUtf8 : List UInt8 → String} {a : AppAction}
    (horderly : Orderly s a) (hstep : step decodeUtf8 s a = .ok s') : Guarded s' := by
  cases a with
  | issue op => exact h.issues hstep
  | begin i => exact h.beginsOperation horderly hstep
  | perform op => exact h.performs hstep
  | answer i result =>
    refine h.answersCall (fun hpending hresult => ?_) hstep
    subst hresult
    exact horderly hpending
  | sendSetTarget i => exact h.sends hstep
  | readAck i frame => exact h.readsAck hstep
  | loop j a =>
    simp only [MonitoringApp.step] at hstep
    split at hstep
    · next l hl => exact h.loopSteps hl horderly hstep
    · cases hstep
  | collect j =>
    simp only [MonitoringApp.step] at hstep
    split at hstep
    · next l hl =>
      split at hstep
      · next r buffer hbuffer =>
        cases hstep
        exact h.collects decodeUtf8 hl hbuffer
      · cases hstep
    · cases hstep

/-- **Only authenticated connections feed the repository**, in every run whose operations do not overlap and in
which no client is accepted while an event loop is running. -/
theorem added_authenticated {decodeUtf8 : List UInt8 → String} {random : Nat → List.Vector UInt8 16}
    {actions : List AppAction} (h : StepsMeet (step decodeUtf8) Orderly (initial random) actions) :
    ∀ done, done <+: actions → ∀ s, run (step decodeUtf8) (initial random) done = .ok s →
      ∀ x ∈ s.added, x.2.Authenticated := by
  intro done hdone s hrun
  refine Guarded.added (run_along (P := fun _ => Guarded) (guarded_initial random) ?_ hrun)
  intro earlier a m t hpre hm hguarded hstep
  exact hguarded.step (h earlier a (hpre.trans hdone) m hm) hstep

/-- The daemon's acknowledgement of a target, with the session token. -/
def ackFrame (token : String) : Frame :=
  let message := ("session=" ++ token ++ ";").toList.map fun c => UInt8.ofNat c.toNat
  ⟨msgAck, [1, 0, 0, 0, UInt8.ofNat message.length] ++ message⟩

/-- An event without parcel. -/
def eventFrame : Frame := ⟨msgBinderEvent, 2 :: List.replicate 59 0⟩

/-- A session is started: the client connects, the handshake is acknowledged, and the event loop starts. -/
def handshaken : List AppAction :=
  [AppAction.issue (.startMonitoring 10123 "com.example" "Example"), .begin 0] ++
    List.replicate 6 (AppAction.answer 0 true) ++
    [AppAction.sendSetTarget 0, .readAck 0 (ackFrame (generateSessionToken (zeroBytes 0)))] ++
    List.replicate 2 (AppAction.answer 0 true)

/-- The event loop reads an event, which is added. -/
def eventRead : List AppAction := [.loop 0 (.read eventFrame), .loop 0 .emit, .collect 0]

/-- The session with an event of its client. -/
def observed : List AppAction := handshaken ++ AppAction.loop 0 .check :: eventRead

theorem handshaken_authenticated :
    StepsMeet (step decodeAscii) Orderly (initial zeroBytes) observed ∧
      ∃ s, run (step decodeAscii) (initial zeroBytes) observed = .ok s ∧ s.session.value = .connected ∧
        s.added.map (fun x => x.2.conn) = [0] ∧ ∀ x ∈ s.added, x.2.Authenticated := by
  have hmeet : StepsMeet (step decodeAscii) Orderly (initial zeroBytes) observed :=
    stepsMeet_of_eval (by decide +kernel)
  refine ⟨hmeet, ?_⟩
  obtain ⟨s, hrun, hvalue, hadded⟩ :
      ∃ s, run (step decodeAscii) (initial zeroBytes) observed = .ok s ∧ s.session.value = .connected ∧
        s.added.map (fun x => x.2.conn) = [0] := exists_of_endsIn (by decide +kernel)
  exact ⟨s, hrun, hvalue, hadded, added_authenticated hmeet _ List.prefix_rfl s hrun⟩

/-- The connection drops, and the event loop accepts the next client, which sends an event. -/
def reaccepted : List AppAction :=
  handshaken ++ [AppAction.loop 0 .check, .loop 0 .readFails, .loop 0 .check, .loop 0 .accept] ++ eventRead

/-- The event is added: no handshake took place on the new connection. -/
theorem reaccepted_not_authenticated :
    ∃ s, run (step decodeAscii) (initial zeroBytes) reaccepted = .ok s ∧
      s.handshakes = [⟨0, 0, s.token⟩] ∧ s.added.map (fun x => x.2.conn) = [1] ∧
      ∃ x ∈ s.added, ¬ x.2.Authenticated :=
  exists_of_endsIn (by decide +kernel)

end MonitoringApp

end BinderTracer.App
