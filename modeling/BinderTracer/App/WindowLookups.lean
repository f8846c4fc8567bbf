import BinderTracer.App.EventRepository

/-!
# Lookups through the window

`getEvent`, `findReplyForRequest` and `findRequestForReply` search the window in memory and then the store. Beside
the calls of the repository the writer of the store goes on by itself. Once it has served every request, the window
is the end of the events added since the last clear, and the store has all of them (`Windowed`).

Searching the window first finds the partner of an event if there is one event of each direction to a pair. Two
replies to one request are another matter: once the first has left the window, the answer is the second.
-/

namespace BinderTracer.App

open BinderTracer.Lib WriteRequest ColdEventCodec

/-! ### What a lookup is for -/

/-- The event that answers `e` among the events: the first one of the other direction with its pair. -/
def partner (events : List BinderEvent) (wantReply : Bool) (e : BinderEvent) : Option BinderEvent :=
  if e.isReply = wantReply ∨ e.pairId = 0 then none
  else events.find? fun x => x.isReply = wantReply && x.pairId = e.pairId

/-- There is at most one event of each direction to a pair. -/
def OnePerSide (events : List BinderEvent) : Prop :=
  events.Pairwise fun a b => a.pairId = b.pairId → a.pairId ≠ 0 → a.isReply ≠ b.isReply

instance (events : List BinderEvent) : Decidable (OnePerSide events) :=
  inferInstanceAs (Decidable (List.Pairwise _ _))

/-- Every request has been served, and no failure is remembered. -/
def Writer.Drained (w : Writer) : Prop :=
  w.queue = [] ∧ w.batch = [] ∧ w.pending = none ∧ w.writeFailure = none

instance (w : Writer) : Decidable w.Drained := inferInstanceAs (Decidable (_ ∧ _))

theorem WriteRequest.IncreasingIds.recent {requests : List WriteRequest} (h : IncreasingIds requests) :
    (recent requests).Pairwise fun a b => a.id < b.id :=
  h.sublist (recent_suffix requests).sublist

/-- What is read back from the store is read back unchanged. -/
@[simp] theorem BinderEvent.archived_archived (e : BinderEvent) : e.archived.archived = e.archived := by
  simp [archived_eq, interfaceName, methodName]

/-- The partner has the lowest id. -/
theorem partner_lowest {events : List BinderEvent} (hids : events.Pairwise fun a b => a.id < b.id)
    {wantReply : Bool} {e x : BinderEvent} (h : partner events wantReply e = some x) :
    x ∈ events ∧ x.isReply = wantReply ∧ x.pairId = e.pairId ∧
      ∀ y ∈ events, y.isReply = wantReply → y.pairId = e.pairId → x.id ≤ y.id := by
  unfold partner at h
  split at h
  · cases h
  · obtain ⟨hmem, htest, hlowest⟩ := lowest_of_find? hids h
    simp only [Bool.and_eq_true, decide_eq_true_eq] at htest hlowest
    exact ⟨hmem, htest.1, htest.2, fun y hy hside hpair => hlowest y hy ⟨hside, hpair⟩⟩

/-- More events do not change the partner that is found. -/
theorem partner_append {events : List BinderEvent} {wantReply : Bool} {e x : BinderEvent}
    (h : partner events wantReply e = some x) (more : List BinderEvent) :
    partner (events ++ more) wantReply e = some x := by
  unfold partner at h ⊢
  split at h
  · cases h
  · next hmay => rw [if_neg hmay, List.find?_append, h, Option.some_or]

/-! ### The repository beside the writer -/

/-- Only a put changes what has been put on the queue. -/
theorem Writer.put_of_step {w w' : Writer} {a : Writer.Action} (hput : ∀ r, a ≠ .put r) (h : w.step a = .ok w') :
    w'.put = w.put := by
  cases a with
  | put r => exact absurd rfl (hput r)
  | take failure =>
    simp only [Writer.step] at h
    split at h
    · split at h
      · next r _ => cases h; cases r <;> rfl
      · next r _ _ _ => cases h; cases r <;> rfl
      · cases h
    · cases h
  | more =>
    simp only [Writer.step] at h
    split at h
    · split at h
      · cases h; rfl
      · cases h; rfl
      · cases h
    · cases h
  | write failure =>
    simp only [Writer.step] at h
    split at h
    · cases h
    · cases h; rfl

namespace EventRepository

inductive Action where
  | addEvent (event : BinderEvent) (now : Int64)
  | clearEvents (now : Int64)
  /-- The writer goes on. -/
  | writer (a : Writer.Action)
deriving DecidableEq, Repr

def step (s : EventRepository) : Action → Except Blocked EventRepository
  | .addEvent event now => .ok (s.addEvent event now)
  | .clearEvents now => .ok (s.clearEvents now)
  | .writer (.put _) => .error .blocked
  | .writer a =>
    match s.coldStore.step a with
    | .ok coldStore => .ok { s with coldStore }
    | .error e => .error e

/-- The writer is consistent, and the window is the end of the events that were put on its queue. -/
structure Windowed (s : EventRepository) : Prop where
  writer : s.coldStore.Consistent
  window : s.buffer.deque = (recent s.coldStore.put).rtake s.buffer.capacity
  index : DistinctIds s.coldStore.put → Indexes BinderEvent.id s.buffer.index s.buffer.deque

theorem windowed_initial (capacity : Nat) (positive : 0 < capacity) (now : Int64) :
    Windowed (initial capacity positive now) where
  writer := Writer.consistent_initial
  window := by simp [initial, recent]
  index := fun _ => indexes_empty _

/-- What a step can do. -/
theorem step_cases {s t : EventRepository} {a : Action} (h : s.step a = .ok t) :
    (∃ event now, a = .addEvent event now ∧ t = s.addEvent event now) ∨
      (∃ now, a = .clearEvents now ∧ t = s.clearEvents now) ∨
      ∃ b coldStore, a = .writer b ∧ s.coldStore.step b = .ok coldStore ∧ coldStore.put = s.coldStore.put ∧
        t = { s with coldStore } := by
  cases a with
  | addEvent event now =>
    cases h
    exact .inl ⟨event, now, rfl, rfl⟩
  | clearEvents now =>
    cases h
    exact .inr (.inl ⟨now, rfl, rfl⟩)
  | writer b =>
    by_cases hput : ∃ r, b = .put r
    · obtain ⟨r, rfl⟩ := hput
      cases h
    · have hb : ∀ r, b ≠ .put r := fun r hr => hput ⟨r, hr⟩
      have hstep : s.step (.writer b) = match s.coldStore.step b with
          | .ok coldStore => .ok { s with coldStore }
          | .error e => .error e := by
        cases b with
        | put r => exact absurd rfl (hb r)
        | _ => rfl
      rw [hstep] at h
      cases hw : s.coldStore.step b with
      | error e => rw [hw] at h; cases h
      | ok coldStore =>
        rw [hw] at h
        cases h
        exact .inr (.inr ⟨b, coldStore, rfl, hw, Writer.put_of_step hb hw, rfl⟩)

section
variable {s t : EventRepository}

theorem Windowed.addEvent (h : Windowed s) (event : BinderEvent) (now : Int64) : Windowed (s.addEvent event now) := by
  have hput : recent (s.coldStore.put ++ [.append event]) = recent s.coldStore.put ++ [event] := recent_snoc _ _
  have hwindow := BoundedEventBuffer.deque_add h.window event
  refine ⟨?_, ?_, ?_⟩
  · have hoffer : s.coldStore.step (.put (.append event)) = .ok (s.coldStore.offer (.append event)) := rfl
    simpa [EventRepository.addEvent, addSection] using h.writer.step hoffer
  · simp only [EventRepository.addEvent, addSection, countRate_buffer, countRate_coldStore, Writer.offer, hput]
    exact hwindow
  · intro hids
    simp only [EventRepository.addEvent, addSection, countRate_buffer, countRate_coldStore, Writer.offer] at hids ⊢
    have hrecent := hids.recent
    rw [hput] at hrecent
    refine BoundedEventBuffer.indexes_add (h.index (hids.of_prefix (List.prefix_append _ _))) ?_
    rw [h.window]
    exact hrecent.sublist ((rtake_sublist _ _).append (List.Sublist.refl _))

theorem Windowed.clearEvents (h : Windowed s) (now : Int64) : Windowed (s.clearEvents now) := by
  have hput : recent (s.coldStore.put ++ [.clear]) = [] := recent_snoc _ _
  refine ⟨?_, ?_, fun _ => indexes_empty _⟩
  · have hoffer : s.coldStore.step (.put .clear) = .ok (s.coldStore.offer .clear) := rfl
    exact h.writer.step hoffer
  · simp only [EventRepository.clearEvents, clearSection, Writer.offer, hput, BoundedEventBuffer.clear, List.rtake_nil]

theorem Windowed.step (h : Windowed s) {a : Action} (hstep : s.step a = .ok t) : Windowed t := by
  obtain ⟨event, now, -, rfl⟩ | ⟨now, -, rfl⟩ | ⟨b, coldStore, -, hw, hput, rfl⟩ := step_cases hstep
  · exact h.addEvent event now
  · exact h.clearEvents now
  · exact ⟨h.writer.step hw, by simpa only [hput] using h.window, by simpa only [hput] using h.index⟩

theorem run_windowed {actions : List Action} (hs : Windowed s) (h : run step s actions = .ok t) : Windowed t :=
  run_invariant (fun _ _ _ hm hstep => Windowed.step hm hstep) hs h

/-- Without a clear, the events that are kept become more. -/
theorem recent_grows {actions : List Action} (hclear : ∀ a ∈ actions, ∀ now, a ≠ .clearEvents now)
    (h : run step s actions = .ok t) : recent s.coldStore.put <+: recent t.coldStore.put := by
  refine run_history (P := fun actions t => (∀ a ∈ actions, ∀ now, a ≠ .clearEvents now) →
    recent s.coldStore.put <+: recent t.coldStore.put) (fun _ => List.prefix_rfl) ?_ h hclear
  intro done m a t _ ih hstep hclear
  have hdone := ih fun b hb => hclear b (List.mem_append_left _ hb)
  obtain ⟨event, now, -, rfl⟩ | ⟨now, rfl, -⟩ | ⟨b, coldStore, -, -, hput, rfl⟩ := step_cases hstep
  · have hput : recent (m.addEvent event now).coldStore.put = recent m.coldStore.put ++ [event] := by
      simp only [EventRepository.addEvent, addSection, countRate_coldStore, Writer.offer, recent_snoc, WriteRequest.apply]
    rw [hput]
    exact hdone.trans (List.prefix_append _ _)
  · exact absurd rfl (hclear _ (List.mem_append_right _ List.mem_cons_self) now)
  · rw [hput]
    exact hdone

end

/-! ### The answers -/

section
variable {s : EventRepository}

/-- The table has the events in the order of their ids. -/
theorem Windowed.rows (h : Windowed s) (hdrained : s.coldStore.Drained) (hids : IncreasingIds s.coldStore.put) :
    s.coldStore.table.events.reverse = recent s.coldStore.put := by
  obtain ⟨hqueue, hbatch, hpending, hfailure⟩ := hdrained
  have hserved : s.coldStore.put = s.coldStore.served := by
    rw [h.writer.put, hqueue, hbatch, hpending]
    simp
  refine EventStore.reverse_events ?_ hids.recent
  rw [hserved] at hids ⊢
  exact h.writer.table hfailure hids.distinct

/-- A search of the window and then of the store is one of the events, if at most one is looked for. -/
theorem Windowed.search (h : Windowed s) (hdrained : s.coldStore.Drained) (hids : IncreasingIds s.coldStore.put)
    {p : BinderEvent → Bool} {test : Row → Bool} (htest : ∀ e, test (toRow e) = p e)
    (hone : (recent s.coldStore.put).Pairwise fun x y => ¬ (p x = true ∧ p y = true)) :
    ((s.buffer.deque.find? p).or (s.coldStore.table.queryOne test)).map BinderEvent.archived =
      ((recent s.coldStore.put).find? p).map BinderEvent.archived := by
  have hstore : s.coldStore.table.queryOne test = ((recent s.coldStore.put).find? p).map BinderEvent.archived := by
    rw [EventStore.queryOne_eq, h.rows hdrained hids]
    simp only [htest]
  have hagain : (((recent s.coldStore.put).find? p).map BinderEvent.archived).map BinderEvent.archived =
      ((recent s.coldStore.put).find? p).map BinderEvent.archived := by
    rw [Option.map_map]
    exact Option.map_congr fun e _ => e.archived_archived
  rw [hstore, h.window, Option.map_or, hagain, ← Option.map_or, find?_rtake_or hone]

theorem Windowed.getEvent (h : Windowed s) (hdrained : s.coldStore.Drained) (hids : IncreasingIds s.coldStore.put)
    (id : Int64) :
    (s.getEvent id).map BinderEvent.archived =
      ((recent s.coldStore.put).find? fun e => e.id = id).map BinderEvent.archived := by
  have hone : (recent s.coldStore.put).Pairwise fun x y =>
      ¬ (decide (x.id = id) = true ∧ decide (y.id = id) = true) :=
    hids.distinct.recent.imp fun hne hboth =>
      hne ((of_decide_eq_true hboth.1).trans (of_decide_eq_true hboth.2).symm)
  rw [EventRepository.getEvent, BoundedEventBuffer.findById, h.index hids.distinct id]
  exact h.search hdrained hids (fun e => rfl) hone

theorem Windowed.findPartner (h : Windowed s) (hdrained : s.coldStore.Drained) (hids : IncreasingIds s.coldStore.put)
    (hpairs : OnePerSide (recent s.coldStore.put)) (wantReply : Bool) (e : BinderEvent) :
    (s.findPartner wantReply e).map BinderEvent.archived =
      (partner (recent s.coldStore.put) wantReply e).map BinderEvent.archived := by
  unfold EventRepository.findPartner partner
  by_cases hside : e.isReply = wantReply
  · rw [if_pos hside, if_pos (.inl hside)]
  · by_cases hpair : e.pairId = 0
    · rw [if_neg hside, if_pos hpair, if_pos (.inr hpair)]
    · rw [if_neg hside, if_neg hpair, if_neg (not_or.2 ⟨hside, hpair⟩)]
      refine h.search hdrained hids (fun x => ?_) ?_
      · cases hx : x.isReply <;> cases wantReply <;> simp [toRow, hx]
      · refine hpairs.imp fun {x y} hxy hboth => ?_
        simp only [Bool.and_eq_true, decide_eq_true_eq] at hboth
        obtain ⟨⟨hxside, hxpair⟩, hyside, hypair⟩ := hboth
        exact hxy (hxpair.trans hypair.symm) (hxpair ▸ hpair) (hxside.trans hyside.symm)

/-- Later events do not change an answer. -/
theorem Windowed.findPartner_kept {t : EventRepository} (h : Windowed s) (hdrained : s.coldStore.Drained)
    (hids : IncreasingIds s.coldStore.put) (hpairs : OnePerSide (recent s.coldStore.put)) (ht : Windowed t)
    (htdrained : t.coldStore.Drained) (htids : IncreasingIds t.coldStore.put)
    (htpairs : OnePerSide (recent t.coldStore.put))
    (hgrows : recent s.coldStore.put <+: recent t.coldStore.put) {wantReply : Bool} {e x : BinderEvent}
    (hfound : s.findPartner wantReply e = some x) :
    (t.findPartner wantReply e).map BinderEvent.archived = some x.archived := by
  have hs := h.findPartner hdrained hids hpairs wantReply e
  rw [hfound, Option.map_some] at hs
  obtain ⟨y, hy, hxy⟩ := Option.map_eq_some_iff.1 hs.symm
  obtain ⟨more, hmore⟩ := hgrows
  rw [ht.findPartner htdrained htids htpairs, ← hmore, partner_append hy, Option.map_some, hxy]

end

/-- **The window is transparent to lookups while each pair has one event of each direction.** Once the writer has
served every request, an event is found by its id, and with `OnePerSide` the reply to a request and the request of a
reply, as in the list of all events added since the last clear; and an answer stays when events are added. -/
theorem lookups_transparent {capacity : Nat} {positive : 0 < capacity} {start : Int64} {actions : List Action}
    {s : EventRepository} (h : run step (initial capacity positive start) actions = .ok s)
    (hids : IncreasingIds s.coldStore.put) (hdrained : s.coldStore.Drained) :
    (∀ id, (s.getEvent id).map BinderEvent.archived =
      ((recent s.coldStore.put).find? fun e => e.id = id).map BinderEvent.archived) ∧
    (OnePerSide (recent s.coldStore.put) →
      (∀ request, (s.findReplyForRequest request).map BinderEvent.archived =
        (partner (recent s.coldStore.put) true request).map BinderEvent.archived) ∧
      ∀ reply, (s.findRequestForReply reply).map BinderEvent.archived =
        (partner (recent s.coldStore.put) false reply).map BinderEvent.archived) ∧
    (∀ wantReply e x, partner (recent s.coldStore.put) wantReply e = some x →
      x ∈ recent s.coldStore.put ∧ x.isReply = wantReply ∧ x.pairId = e.pairId ∧
        ∀ y ∈ recent s.coldStore.put, y.isReply = wantReply → y.pairId = e.pairId → x.id ≤ y.id) ∧
    ∀ more t, run step s more = .ok t → (∀ a ∈ more, ∀ now, a ≠ .clearEvents now) →
      IncreasingIds t.coldStore.put → t.coldStore.Drained → OnePerSide (recent t.coldStore.put) →
      (∀ request x, s.findReplyForRequest request = some x →
        (t.findReplyForRequest request).map BinderEvent.archived = some x.archived) ∧
      ∀ reply x, s.findRequestForReply reply = some x →
        (t.findRequestForReply reply).map BinderEvent.archived = some x.archived := by
  have hs : Windowed s := run_windowed (windowed_initial capacity positive start) h
  refine ⟨hs.getEvent hdrained hids, fun hpairs => ?_, fun wantReply e x => partner_lowest hids.recent, ?_⟩
  · exact ⟨hs.findPartner hdrained hids hpairs true, hs.findPartner hdrained hids hpairs false⟩
  · intro more t hrun hclear htids htdrained htpairs
    have hgrows := recent_grows hclear hrun
    have hpairs : OnePerSide (recent s.coldStore.put) := htpairs.sublist hgrows.sublist
    have hkept : ∀ wantReply e x, s.findPartner wantReply e = some x →
        (t.findPartner wantReply e).map BinderEvent.archived = some x.archived := fun wantReply e x =>
      hs.findPartner_kept hdrained hids hpairs (run_windowed hs hrun) htdrained htids htpairs hgrows
    exact ⟨hkept true, hkept false⟩

/-- A request, and an event that replies to it. -/
def asked : BinderEvent := { Writer.plainEvent 0 with pairId := 7 }

def answer (id : Int64) : BinderEvent := { Writer.plainEvent id with pairId := 7, isReply := true }

/-- Two events, and the writer stores them. -/
def addTwo (first second : BinderEvent) : List Action :=
  [.addEvent first 10, .addEvent second 20, .writer (.take none), .writer .more, .writer (.write none)]

theorem lookups_transparent_asked :
    ∃ s t, run step (initial 2 Nat.two_pos 0) (addTwo asked (answer 1)) = .ok s ∧
      run step s (addTwo (Writer.plainEvent 2) (Writer.plainEvent 3)) = .ok t ∧
      s.findReplyForRequest asked = some (answer 1) ∧ t.buffer.deque = [Writer.plainEvent 2, Writer.plainEvent 3] ∧
      (t.findReplyForRequest asked).map BinderEvent.archived = some (answer 1).archived := by
  obtain ⟨s, hs, hids, hdrained, hfound, hlater⟩ :
      ∃ s, run step (initial 2 Nat.two_pos 0) (addTwo asked (answer 1)) = .ok s ∧
        IncreasingIds s.coldStore.put ∧ s.coldStore.Drained ∧ s.findReplyForRequest asked = some (answer 1) ∧
        endsIn (fun t => decide (IncreasingIds t.coldStore.put ∧ t.coldStore.Drained ∧
          OnePerSide (recent t.coldStore.put) ∧ t.buffer.deque = [Writer.plainEvent 2, Writer.plainEvent 3]))
          (run step s (addTwo (Writer.plainEvent 2) (Writer.plainEvent 3))) = true :=
    exists_of_endsIn (by decide +kernel)
  obtain ⟨t, ht, htids, htdrained, hpairs, hdeque⟩ := exists_of_endsIn hlater
  obtain ⟨-, -, -, hkept⟩ := lookups_transparent hs hids hdrained
  have hclear : ∀ a ∈ addTwo (Writer.plainEvent 2) (Writer.plainEvent 3), ∀ now, a ≠ .clearEvents now := by
    simp [addTwo]
  obtain ⟨hreply, -⟩ := hkept _ t ht hclear htids htdrained hpairs
  exact ⟨s, t, hs, ht, hfound, hdeque, hreply asked (answer 1) hfound⟩

/-- **A second reply takes the place of the first once that one has left the window.** -/
theorem answer_changes :
    ∃ s t, run step (initial 2 Nat.two_pos 0) (addTwo asked (answer 1)) = .ok s ∧
      run step s (addTwo (answer 2) (Writer.plainEvent 3)) = .ok t ∧
      IncreasingIds t.coldStore.put ∧ s.coldStore.Drained ∧ t.coldStore.Drained ∧
      s.findReplyForRequest asked = some (answer 1) ∧ t.findReplyForRequest asked = some (answer 2) ∧
      partner (recent t.coldStore.put) true asked = some (answer 1) := by
  obtain ⟨s, hs, hdrained, hfound, hlater⟩ :
      ∃ s, run step (initial 2 Nat.two_pos 0) (addTwo asked (answer 1)) = .ok s ∧
        s.coldStore.Drained ∧ s.findReplyForRequest asked = some (answer 1) ∧
        endsIn (fun t => decide (IncreasingIds t.coldStore.put ∧ t.coldStore.Drained ∧
          t.findReplyForRequest asked = some (answer 2) ∧
          partner (recent t.coldStore.put) true asked = some (answer 1)))
          (run step s (addTwo (answer 2) (Writer.plainEvent 3))) = true :=
    exists_of_endsIn (by decide +kernel)
  obtain ⟨t, ht, htids, htdrained, hsecond, hfirst⟩ := exists_of_endsIn hlater
  exact ⟨s, t, hs, ht, htids, hdrained, htdrained, hfound, hsecond, hfirst⟩

end EventRepository

end BinderTracer.App
