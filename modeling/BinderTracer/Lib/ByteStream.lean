import BinderTracer.Lib.ByteOrder

/-!
# Byte streams over a connection

The receiving end of a connection gets the bytes of a stream in pieces, cut anywhere; one read
delivers at most the rest of a piece, and a loop reads on until it has as much as was asked for. What
such a loop returns depends on the concatenation of the pieces only (`readFull_field`,
`readFull_end`). The sending end may fail at any point.

Computations that can throw keep the state they have reached, so they are `EStateM`. `Keeps` says
that a computation preserves a property of the state however it ends.
-/

namespace BinderTracer.Lib

/-- The receiving end: the pieces still to come, and the sizes of the buffers made so far for what
the stream announces. -/
structure Input where
  pieces : List (List UInt8)
  buffers : List Nat := []
deriving DecidableEq, Repr

/-- The bytes still to come. -/
def Input.bytes (s : Input) : List UInt8 := s.pieces.flatten

/-- The sending end: what was written so far, and how many bytes can still be written before the
connection fails, if it does. -/
structure Output where
  written : List UInt8 := []
  room : Option Nat := none
deriving DecidableEq, Repr

/-- Take `n` bytes piece by piece. If the stream ends first, what there was. -/
def takeFull : Nat → List (List UInt8) → Except (List UInt8) (List UInt8 × List (List UInt8))
  | 0, pieces => .ok ([], pieces)
  | _ + 1, [] => .error []
  | n + 1, piece :: pieces =>
    if n + 1 ≤ piece.length then .ok (piece.take (n + 1), piece.drop (n + 1) :: pieces)
    else
      match takeFull (n + 1 - piece.length) pieces with
      | .ok (more, pieces) => .ok (piece ++ more, pieces)
      | .error part => .error (piece ++ part)

section
variable {ε α β : Type}

/-- Read exactly `n` bytes. The error at the end of the stream may depend on what was still read. -/
def readFull (atEnd : List UInt8 → ε) (n : Nat) : EStateM ε Input (List UInt8) := fun s =>
  match takeFull n s.pieces with
  | .ok (bytes, pieces) => .ok bytes { s with pieces }
  | .error part => .error (atEnd part) { s with pieces := [] }

/-- Make a buffer of `n` bytes. -/
def makeBuffer (n : Nat) : EStateM ε Input Unit := modify fun s => { s with buffers := s.buffers ++ [n] }

/-- Write `bytes`; a connection that fails takes a part of them. -/
def writeAll (fault : ε) (bytes : List UInt8) : EStateM ε Output Unit := fun s =>
  match s.room with
  | none => .ok () { s with written := s.written ++ bytes }
  | some n =>
    if bytes.length ≤ n then .ok () { written := s.written ++ bytes, room := some (n - bytes.length) }
    else .error fault { written := s.written ++ bytes.take n, room := some 0 }

theorem EStateM.bind_ok {σ : Type} {m : EStateM ε σ α} {f : α → EStateM ε σ β} {s s' : σ} {a : α}
    (h : m s = .ok a s') : (m >>= f) s = f a s' := by
  show EStateM.bind m f s = _
  rw [EStateM.bind, h]

theorem EStateM.bind_error {σ : Type} {m : EStateM ε σ α} {f : α → EStateM ε σ β} {s s' : σ} {e : ε}
    (h : m s = .error e s') : (m >>= f) s = .error e s' := by
  show EStateM.bind m f s = _
  rw [EStateM.bind, h]

/-- A sequence that returns is two computations that return. -/
theorem EStateM.bind_eq_ok {σ : Type} {m : EStateM ε σ α} {f : α → EStateM ε σ β} {s s' : σ} {b : β}
    (h : (m >>= f) s = .ok b s') : ∃ a mid, m s = .ok a mid ∧ f a mid = .ok b s' := by
  cases hm : m s with
  | ok a mid =>
    rw [EStateM.bind_ok hm] at h
    exact ⟨a, mid, rfl, h⟩
  | error e mid =>
    rw [EStateM.bind_error hm] at h
    cases h

end

/-! ### Reading -/

theorem takeFull_prefix {n : Nat} {pieces : List (List UInt8)} (h : n ≤ pieces.flatten.length) :
    ∃ left, takeFull n pieces = .ok (pieces.flatten.take n, left) ∧ left.flatten = pieces.flatten.drop n := by
  induction pieces generalizing n with
  | nil =>
    obtain rfl : n = 0 := Nat.le_zero.1 h
    exact ⟨[], rfl, rfl⟩
  | cons piece pieces ih =>
    rw [List.flatten_cons] at h ⊢
    cases n with
    | zero => exact ⟨piece :: pieces, by simp [takeFull], by simp⟩
    | succ n =>
      rw [takeFull]
      split
      · next hwhole =>
        refine ⟨_, by rw [List.take_append_of_le_length hwhole], ?_⟩
        rw [List.drop_append_of_le_length hwhole, List.flatten_cons]
      · next hpart =>
        have hlen : n + 1 - piece.length ≤ pieces.flatten.length := by
          rw [List.length_append] at h
          omega
        obtain ⟨left, hleft, hflat⟩ := ih hlen
        rw [hleft]
        refine ⟨left, ?_, ?_⟩
        · rw [List.take_append, List.take_of_length_le (by omega : piece.length ≤ n + 1)]
        · rw [hflat, List.drop_append, List.drop_of_length_le (by omega : piece.length ≤ n + 1),
            List.nil_append]

theorem takeFull_end {n : Nat} {pieces : List (List UInt8)} (h : pieces.flatten.length < n) :
    takeFull n pieces = .error pieces.flatten := by
  induction pieces generalizing n with
  | nil =>
    cases n with
    | zero => cases h
    | succ n => rfl
  | cons piece pieces ih =>
    rw [List.flatten_cons, List.length_append] at h
    cases n with
    | zero => omega
    | succ n =>
      rw [takeFull, if_neg (by omega), ih (by omega)]
      rfl

section
variable {ε : Type} (atEnd : List UInt8 → ε) {s : Input}

@[simp] theorem readFull_zero : readFull atEnd 0 = pure [] := by
  funext s
  simp only [readFull, takeFull]
  rfl

/-- **However the bytes are cut into pieces**, a field at the front is read as a whole. -/
theorem readFull_field {field rest : List UInt8} (h : s.bytes = field ++ rest) :
    ∃ s', readFull atEnd field.length s = .ok field s' ∧ s'.bytes = rest := by
  have hlen : field.length ≤ s.pieces.flatten.length := by
    rw [show s.pieces.flatten = field ++ rest from h, List.length_append]
    omega
  obtain ⟨left, htake, hleft⟩ := takeFull_prefix hlen
  rw [show s.pieces.flatten = field ++ rest from h] at htake hleft
  rw [List.take_left] at htake
  rw [List.drop_left] at hleft
  exact ⟨{ s with pieces := left }, by rw [readFull, htake], hleft⟩

theorem readFull_end {n : Nat} (h : s.bytes.length < n) :
    readFull atEnd n s = .error (atEnd s.bytes) { s with pieces := [] } := by
  rw [readFull, takeFull_end h]
  rfl

end

/-! ### Writing -/

section
variable {ε : Type} {s : Output}

theorem writeAll_ok {fault : ε} {bytes : List UInt8} {u : Unit} {s' : Output} (h : writeAll fault bytes s = .ok u s') :
    s'.written = s.written ++ bytes := by
  unfold writeAll at h
  split at h
  · cases h; rfl
  · split at h
    · cases h; rfl
    · cases h

theorem writeAll_error {fault e : ε} {bytes : List UInt8} {s' : Output}
    (h : writeAll fault bytes s = .error e s') : e = fault := by
  unfold writeAll at h
  split at h
  · cases h
  · split at h
    · cases h
    · cases h; rfl

theorem writeAll_healthy (fault : ε) (bytes : List UInt8) (h : s.room = none) :
    writeAll fault bytes s = .ok () { s with written := s.written ++ bytes } := by
  rw [writeAll, h]

/-- A connection that still takes bytes takes all of them, or a part and then no more. -/
theorem writeAll_cases (fault : ε) (bytes : List UInt8) (s : Output) :
    (∃ s', writeAll fault bytes s = .ok () s' ∧ s'.written = s.written ++ bytes ∧ (s.room = some 0 → bytes = [])) ∨
      ∃ part, writeAll fault bytes s = .error fault { written := s.written ++ part, room := some 0 } ∧
        part <+: bytes ∧ part ≠ bytes ∧ (s.room = some 0 → part = []) := by
  unfold writeAll
  cases hroom : s.room with
  | none => exact .inl ⟨_, rfl, rfl, nofun⟩
  | some n =>
    dsimp only
    split
    · next hfits =>
      refine .inl ⟨_, rfl, rfl, ?_⟩
      rintro ⟨⟩
      exact List.eq_nil_of_length_eq_zero (Nat.le_zero.1 hfits)
    · next hcut =>
      refine .inr ⟨bytes.take n, rfl, List.take_prefix n bytes, ?_, ?_⟩
      · intro heq
        have hlen := congrArg List.length heq
        rw [List.length_take] at hlen
        omega
      · rintro ⟨⟩
        exact List.take_zero

end

/-! ### What a computation keeps -/

section
variable {ε σ α β : Type} {I : σ → Prop}

/-- The state in which a computation ended. -/
def endState : EStateM.Result ε σ α → σ
  | .ok _ s => s
  | .error _ s => s

/-- The computation preserves `I`, whether it returns or throws. -/
def Keeps (I : σ → Prop) (m : EStateM ε σ α) : Prop := ∀ s, I s → I (endState (m s))

theorem Keeps.pure (a : α) : Keeps I (Pure.pure a : EStateM ε σ α) := fun _ h => h

theorem Keeps.throw (e : ε) : Keeps I (MonadExcept.throw e : EStateM ε σ α) := fun _ h => h

theorem Keeps.bind {m : EStateM ε σ α} {f : α → EStateM ε σ β} (hm : Keeps I m) (hf : ∀ a, Keeps I (f a)) :
    Keeps I (m >>= f) := by
  intro s hs
  have hfirst := hm s hs
  cases h : m s with
  | ok a s' =>
    rw [EStateM.bind_ok h]
    rw [h] at hfirst
    exact hf a s' hfirst
  | error e s' =>
    rw [EStateM.bind_error h]
    rw [h] at hfirst
    exact hfirst

/-- No buffer is larger than `bound`. -/
def Input.Within (bound : Nat) (s : Input) : Prop := ∀ n ∈ s.buffers, n ≤ bound

theorem Keeps.readFull (bound : Nat) (atEnd : List UInt8 → ε) (n : Nat) :
    Keeps (Input.Within bound) (Lib.readFull atEnd n) := by
  intro s hs
  unfold Lib.readFull
  split <;> exact hs

theorem Keeps.makeBuffer {bound n : Nat} (h : n ≤ bound) :
    Keeps (Input.Within bound) (Lib.makeBuffer n : EStateM ε Input Unit) := by
  intro s hs m hm
  rcases List.mem_append.1 (show m ∈ s.buffers ++ [n] from hm) with hold | hnew
  · exact hs m hold
  · rw [List.mem_singleton.1 hnew]
    exact h

end

end BinderTracer.Lib
