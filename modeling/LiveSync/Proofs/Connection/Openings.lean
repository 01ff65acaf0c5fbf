import LiveSync.Proofs.Connection.Course

/-!
# What opens an attempt, and what hands a frame on

Most inputs do neither. An attempt is opened when the user wants to be
connected, when the host returns and when a retry is due, and then it is
being opened after the step (`Machine.phase_of_open_mem`). A frame is handed
on when it arrived on the attempt under way, and never otherwise
(`Machine.eq_frame_of_deliver_mem`).
-/

namespace LiveSync.Connection

open LiveSync.Wire

/-- Whether an effect opens an attempt or hands a frame on. -/
def Effect.isRare : Effect → Bool
  | .open _ | .deliver _ => true
  | _ => false

namespace Machine

variable {m : Machine}

/-- **Effects that open nothing and hand nothing on.** -/
def Quiet (effects : List Effect) : Prop := ∀ x ∈ effects, x.isRare = false

@[simp] theorem quiet_nil : Quiet [] := nofun

@[simp] theorem quiet_cons {x : Effect} {effects : List Effect} :
    Quiet (x :: effects) ↔ x.isRare = false ∧ Quiet effects :=
  List.forall_mem_cons

@[simp] theorem quiet_append {effects effects' : List Effect} :
    Quiet (effects ++ effects') ↔ Quiet effects ∧ Quiet effects' :=
  List.forall_mem_append

theorem quiet_of_isAside {effects : List Effect} (h : ∀ x ∈ effects, x.isAside = true) :
    Quiet effects := by
  intro x hx
  have hx := h x hx
  cases x <;> first | rfl | cases hx

@[simp] theorem quiet_still (m : Machine) : Quiet m.still.2 := quiet_nil

@[simp] theorem quiet_setStatus (status : ConnectionStatus) (m : Machine) :
    Quiet (setStatus status m).2 :=
  quiet_of_isAside (isAside_setStatus status m)

@[simp] theorem quiet_terminate (error : Failure) (m : Machine) : Quiet (terminate error m).2 :=
  quiet_of_isAside (isAside_terminate error m)

@[simp] theorem quiet_scheduleRetry (m : Machine) : Quiet m.scheduleRetry.2 :=
  quiet_of_isAside (isAside_scheduleRetry m)

@[simp] theorem quiet_endAttempt (m : Machine) : Quiet m.endAttempt.2 := by
  unfold endAttempt
  split <;> simp [Effect.isRare]

@[simp] theorem quiet_retryAfterEnd (m : Machine) : Quiet m.retryAfterEnd.2 := by
  simp [retryAfterEnd, Step.andThen]

@[simp] theorem quiet_abandonAttempt (m : Machine) : Quiet m.abandonAttempt.2 := by
  unfold abandonAttempt
  split <;> simp [Step.andThen, Effect.isRare]

theorem quiet_onDisconnect (m : Machine) : Quiet m.onDisconnect.2 := by
  simp [onDisconnect, Step.andThen, Effect.isRare]

theorem quiet_onOpened (epoch : Epoch) (m : Machine) : Quiet (m.onOpened epoch).2 := by
  unfold onOpened
  split <;> simp [Effect.isRare]

theorem quiet_onOpenFailed (epoch : Epoch) (error : Failure) (m : Machine) :
    Quiet (m.onOpenFailed epoch error).2 := by
  unfold onOpenFailed
  split
  · simp only [Step.andThen]
    split <;> simp
  · simp

theorem quiet_onHelloAck (user : Option Int64) (m : Machine) : Quiet (m.onHelloAck user).2 := by
  unfold onHelloAck
  split <;> simp [Step.andThen, Step.effect, Effect.isRare]

theorem quiet_onClosed (epoch : Epoch) (m : Machine) : Quiet (m.onClosed epoch).2 := by
  unfold onClosed
  split <;> simp

theorem quiet_onLost (epoch : Epoch) (phases : List Phase) (m : Machine) :
    Quiet (m.onLost epoch phases).2 := by
  unfold onLost
  split <;> simp [Step.andThen, Effect.isRare]

/-- **A step that may open an attempt**: afterwards that attempt is being
opened. It hands nothing on. -/
structure MayOpen (s : Step) : Prop where
  opening : ∀ epoch, .open epoch ∈ s.2 → s.1.phase = some .opening
  silent : ∀ frame, .deliver frame ∉ s.2

theorem MayOpen.of_quiet {s : Step} (h : Quiet s.2) : MayOpen s where
  opening _ hx := absurd (h _ hx) nofun
  silent _ hx := absurd (h _ hx) nofun

theorem MayOpen.andThen {s : Step} {f : Machine → Step} (hs : Quiet s.2) (hf : MayOpen (f s.1)) :
    MayOpen (s.andThen f) where
  opening epoch hx :=
    hf.opening epoch ((List.mem_append.mp hx).resolve_left fun h => absurd (hs _ h) nofun)
  silent frame hx :=
    hf.silent frame ((List.mem_append.mp hx).resolve_left fun h => absurd (hs _ h) nofun)

theorem mayOpen_startAttempt (status : ConnectionStatus) (m : Machine) :
    MayOpen (startAttempt status m) where
  opening epoch _ := by rw [startAttempt_fst]
  silent frame hx := by
    rcases List.mem_append.mp hx with hx | hx
    · cases hx with
      | tail _ hx => cases hx
    · exact absurd (quiet_setStatus _ _ _ hx) nofun

theorem mayOpen_onConnect (m : Machine) : MayOpen m.onConnect := by
  unfold onConnect
  split
  · exact .of_quiet (quiet_still m)
  · dsimp only
    split
    · exact mayOpen_startAttempt _ _
    · exact .of_quiet (quiet_setStatus _ _)

theorem mayOpen_onHost (active : Bool) (m : Machine) : MayOpen (m.onHost active) := by
  unfold onHost
  dsimp only
  split
  · exact .andThen (by simp [Effect.isRare]) (mayOpen_startAttempt _ _)
  · exact .of_quiet (quiet_still _)

theorem mayOpen_onRetryFired (epoch : Epoch) (m : Machine) : MayOpen (m.onRetryFired epoch) := by
  unfold onRetryFired
  split
  · split
    · exact mayOpen_startAttempt _ _
    · exact .of_quiet quiet_nil
  · exact .of_quiet (quiet_still m)

/-- **Only a frame makes a step hand a frame on**, and it is that frame. -/
theorem onFrame_cases (epoch : Epoch) (frame : ServerFrame) (m : Machine) :
    (epoch = m.epoch ∧ m.onFrame epoch frame = (m, [.deliver frame]))
      ∨ Quiet (m.onFrame epoch frame).2 := by
  unfold onFrame
  split
  · rename_i hat
    cases frame with
    | helloAck protocol user => exact .inr (quiet_onHelloAck user m)
    | _ => exact .inl ⟨(isAt_iff.mp hat).1, rfl⟩
  · exact .inr (quiet_still m)

/-- **A step hands a frame on** that arrived on the attempt under way, and
does nothing else, or it may open an attempt. -/
theorem handle_cases (m : Machine) (i : Input) :
    (∃ frame, i = .frame m.epoch frame ∧ m.handle i = (m, [.deliver frame]))
      ∨ MayOpen (m.handle i) := by
  cases i with
  | frame epoch frame =>
    rcases onFrame_cases epoch frame m with ⟨rfl, heq⟩ | hquiet
    · exact .inl ⟨frame, rfl, heq⟩
    · exact .inr (.of_quiet hquiet)
  | connect => exact .inr (mayOpen_onConnect m)
  | disconnect => exact .inr (.of_quiet (quiet_onDisconnect m))
  | opened epoch => exact .inr (.of_quiet (quiet_onOpened epoch m))
  | openFailed epoch error => exact .inr (.of_quiet (quiet_onOpenFailed epoch error m))
  | transportError epoch error => exact .inr (.of_quiet (quiet_still m))
  | closed epoch => exact .inr (.of_quiet (quiet_onClosed epoch m))
  | stalled epoch => exact .inr (.of_quiet (quiet_onLost epoch _ m))
  | handshakeTimedOut epoch => exact .inr (.of_quiet (quiet_onLost epoch _ m))
  | retryFired epoch => exact .inr (mayOpen_onRetryFired epoch m)
  | host active => exact .inr (mayOpen_onHost active m)

/-- **A frame is handed on because it arrived** on the attempt under way. -/
theorem eq_frame_of_deliver_mem {i : Input} {frame : ServerFrame}
    (h : .deliver frame ∈ (m.handle i).2) : i = .frame m.epoch frame := by
  rcases handle_cases m i with ⟨f, rfl, heq⟩ | hopen
  · rw [heq, List.mem_singleton] at h
    cases h
    rfl
  · exact absurd h (hopen.silent frame)

/-- **An attempt that is opened by a step is being opened after it.** -/
theorem phase_of_open_mem {i : Input} {epoch : Epoch} (h : .open epoch ∈ (m.handle i).2) :
    (m.handle i).1.phase = some .opening := by
  rcases handle_cases m i with ⟨f, rfl, heq⟩ | hopen
  · rw [heq, List.mem_singleton] at h
    cases h
  · exact hopen.opening epoch h

end Machine

end LiveSync.Connection
