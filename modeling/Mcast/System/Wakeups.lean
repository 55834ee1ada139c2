import Mcast.System.Exclusion

/-!
# No wake-up is lost and none is spurious

A wake-up that finds its service between `Wait_Locked` and the next `OnResume` of the thread only
sets `wakeup_signal`.  The first part of this file shows that no step of the rest of the system
takes such a note away, so that the `OnResume` finds it; the second part reads the remaining
facts about wake-ups off the places of services.
-/

namespace Mcast

open ServiceEvent

/-! ## Services that are being switched out -/

/-- Thread `t` executes the coroutine of `x`, or it has switched away from `x` and the section of
its `OnResume` on `x` is due. -/
def State.SwitchingOut (s : State) (t : Nat) (x : ServiceId) : Prop :=
  (s.threads t).currentService = some x ∧ (s.threads t).phase = .run ∨
    (s.threads t).prevService = some x ∧ (s.threads t).phase = .resumePrev

/-- However the system goes on, the next `OnResume` of thread `t` puts `x` into the run queue. -/
def State.QueuedAtNextResume (s : State) (t : Nat) (x : ServiceId) : Prop :=
  ∀ labels middle after, Label.onResumePrev t ∉ labels →
    Transition.run step s labels = some middle → step middle (.onResumePrev t) = some after →
      x ∈ after.runQueue ∧ (after.services x).status = .ready

/-- A blocked service with a noted wake-up, on its way out of thread `t`. -/
structure State.Due (s : State) (t : Nat) (x : ServiceId) : Prop where
  switching : s.SwitchingOut t x
  blocked : (s.services x).status = .blocked
  signal : (s.services x).wakeupSignal = true

/-- What other threads leave alone in a service that is being switched out. -/
structure Service.Held (before after : Service) : Prop where
  status : after.status = before.status
  out : after.isSwapingOut = before.isSwapingOut
  signal : before.wakeupSignal = true → after.wakeupSignal = true

theorem Service.Held.refl (service : Service) : service.Held service :=
  ⟨rfl, rfl, id⟩

theorem Service.Held.trans {before middle after : Service} (first : before.Held middle)
    (second : middle.Held after) : before.Held after :=
  ⟨second.status.trans first.status, second.out.trans first.out,
    fun signal => second.signal (first.signal signal)⟩

theorem Service.held_wakeupLocked {service : Service} (out : service.isSwapingOut = true)
    (e : ServiceEvent) : service.Held (service.wakeupLocked e).service := by
  by_cases quiet : service.waitEvents &&& e = 0
  · rw [service.wakeupLocked_quiet quiet]
    exact ⟨rfl, rfl, id⟩
  · rw [service.wakeupLocked_switching quiet out]
    exact ⟨rfl, rfl, fun _ => rfl⟩

/-- A step that leaves thread `t` alone and holds service `x`. -/
structure State.Frame (s after : State) (t : Nat) (x : ServiceId) : Prop where
  thread : after.threads t = s.threads t
  held : (s.services x).Held (after.services x)

namespace State.Frame

theorem refl (s : State) (t : Nat) (x : ServiceId) : s.Frame s t x :=
  ⟨rfl, Service.Held.refl _⟩

theorem trans {s middle after : State} {t : Nat} {x : ServiceId} (first : s.Frame middle t x)
    (second : middle.Frame after t x) : s.Frame after t x :=
  ⟨second.thread.trans first.thread, first.held.trans second.held⟩

theorem out {s after : State} {t : Nat} {x : ServiceId} (frame : s.Frame after t x)
    (out : (s.services x).isSwapingOut = true) : (after.services x).isSwapingOut = true :=
  frame.held.out.trans out

/-- The parts of the state that a frame does not mention. -/
theorem congr {s before after : State} {t : Nat} {x : ServiceId} (frame : s.Frame before t x)
    (threads : after.threads = before.threads) (services : after.services = before.services) :
    s.Frame after t x :=
  ⟨by rw [threads]; exact frame.thread, by rw [services]; exact frame.held⟩

theorem setService {s : State} {t : Nat} {x y : ServiceId} (service : Service)
    (held : y = x → (s.services x).Held service) : s.Frame (s.setService y service) t x := by
  refine ⟨rfl, ?_⟩
  by_cases same : y = x
  · subst same
    simpa [State.setService] using held rfl
  · have other : x ≠ y := Ne.symm same
    simpa [State.setService, other] using Service.Held.refl (s.services x)

theorem setThread {s : State} {t u : Nat} {x : ServiceId} (thread : Thread) (other : u ≠ t) :
    s.Frame (s.setThread u thread) t x := by
  refine ⟨?_, Service.Held.refl _⟩
  simp [State.setThread, other.symm]

theorem wakeup {s : State} {t : Nat} {x y : ServiceId}
    (out : (s.services x).isSwapingOut = true) (e : ServiceEvent) :
    s.Frame (s.wakeup y e) t x := by
  refine ⟨by simp, ?_⟩
  rw [State.wakeup_services]
  by_cases same : y = x
  · subst same
    simpa using Service.held_wakeupLocked out e
  · have other : x ≠ y := Ne.symm same
    simpa [other] using Service.Held.refl (s.services x)

theorem setService_wakeup {s : State} {t : Nat} {x y : ServiceId}
    (out : (s.services x).isSwapingOut = true) (service : Service)
    (held : y = x → (s.services x).Held service) (e : ServiceEvent) :
    s.Frame ((s.setService y service).wakeup y e) t x := by
  have stored : s.Frame (s.setService y service) t x := setService service held
  exact stored.trans (wakeup (stored.out out) e)

theorem sendMessage {s : State} {t : Nat} {x : ServiceId}
    (out : (s.services x).isSwapingOut = true) (m : Message) :
    s.Frame (s.sendMessage m).1 t x := by
  have held : m.destination = x → (s.services x).Held
      { s.services m.destination with msgQueue := (s.services m.destination).msgQueue ++ [m] } := by
    rintro rfl
    exact ⟨rfl, rfl, id⟩
  simp only [State.sendMessage]
  split
  · exact (refl s t x).congr rfl rfl
  · split
    · have numbered : s.Frame { s with nextMessage := s.nextMessage + 1 } t x :=
        (refl s t x).congr rfl rfl
      have posted := setService_wakeup (s := { s with nextMessage := s.nextMessage + 1 }) (t := t)
        out _ held kMessage
      exact (numbered.trans posted).congr rfl rfl
    · exact (setService (t := t) _ held).congr rfl rfl

theorem commit {s : State} {t : Nat} {x y : ServiceId} (other : y ≠ x)
    (outcome : Except Check Service) : s.Frame (s.commit y outcome) t x := by
  cases outcome with
  | error check => exact (refl s t x).congr rfl rfl
  | ok service =>
      have stored := setService (s := s) (t := t) service fun same => absurd same other
      simp only [State.commit]
      split
      · exact stored.congr rfl rfl
      · exact stored

theorem respond {s after : State} {t : Nat} {x src : ServiceId}
    (out : (s.services x).isSwapingOut = true) (responded : s.respond src = some after) :
    s.Frame after t x := by
  simp only [State.respond] at responded
  split at responded
  · obtain ⟨_, -, -, -, rfl⟩ := State.onService_eq_some.mp responded
    exact wakeup out kResponse
  · cases responded
    exact refl s t x

theorem sendNotFound {s after : State} {t : Nat} {x : ServiceId} {m : Message}
    (sent : s.sendNotFound m = some after) : s.Frame after t x := by
  simp only [State.sendNotFound] at sent
  split at sent
  · cases sent
  · split at sent
    · cases sent
    · cases sent
      exact (refl s t x).congr rfl rfl

theorem launchService {s : State} {t : Nat} {x : ServiceId}
    (other : ServiceId.launched (s.serviceIndexAlloc + 1) ≠ x) (type : ServiceType) :
    s.Frame (s.launchService type) t x := by
  rw [State.launchService_eq]
  have stored : s.Frame (s.setService (.launched (s.serviceIndexAlloc + 1))
      (Service.launched type s.curTime)) t x := setService _ fun same => absurd same other
  exact stored.congr rfl rfl

/-- The first section of `OnResume` on another thread. -/
theorem onResumePrev {s after : State} {t u : Nat} {x : ServiceId} (otherThread : u ≠ t)
    (other : (s.threads u).phase = .resumePrev → (s.threads u).prevService ≠ some x)
    (resumed : s.onResumePrev u = some after) : s.Frame after t x := by
  have switched := setThread (s := s) (x := x) { s.threads u with phase := .resumeCur } otherThread
  simp only [State.onResumePrev] at resumed
  split at resumed
  · cases resumed
  · rename_i phase
    split at resumed
    · cases resumed
    · cases resumed
      exact switched
    · rename_i p _ previous
      have different : p ≠ x := by
        rintro rfl
        exact other (not_not.mp phase) previous
      have stored := fun service => switched.trans (setService service
        fun same => absurd same different)
      split at resumed
      · cases resumed
        exact (refl s t x).congr rfl rfl
      · split at resumed
        · cases resumed
          exact stored _
        · cases resumed
          split
          · exact (stored _).congr rfl rfl
          · exact stored _

theorem serviceLoop {s after : State} {t : Nat} {x y : ServiceId} (other : y ≠ x)
    (looped : s.serviceLoop y (s.services y) = some after) : s.Frame after t x := by
  have stored := fun service => setService (s := s) (t := t) service fun same => absurd same other
  simp only [State.serviceLoop] at looped
  split at looped
  · cases looped
  · split at looped
    · cases looped
      split
      · exact (stored _).congr rfl rfl
      · exact (stored _).congr rfl rfl
    · split at looped
      · cases looped
        exact (stored _).congr rfl rfl
      · split at looped
        · cases looped
          exact commit other _
        · cases looped
          exact stored _

theorem userReturn {s after : State} {t : Nat} {x y : ServiceId} (other : y ≠ x)
    (returned : s.userReturn y (s.services y) = some after) : s.Frame after t x := by
  have stored := fun service => setService (s := s) (t := t) service fun same => absurd same other
  simp only [State.userReturn] at returned
  split at returned
  · cases returned
    exact stored _
  · cases returned
    exact stored _
  · split at returned
    · cases returned
      exact (stored _).congr rfl rfl
    · cases returned
      exact stored _
  · cases returned

theorem done {s after : State} {t : Nat} {x y : ServiceId}
    (out : (s.services x).isSwapingOut = true) (other : y ≠ x)
    (answered : s.done y (s.services y) = some after) : s.Frame after t x := by
  have stored := fun service => setService (s := s) (t := t) service fun same => absurd same other
  simp only [State.done] at answered
  split at answered
  · rename_i m _ _
    have back : s.Frame
        ((s.setService y { s.services y with msg := none, point := .loop }).addLog (.done m)) t x :=
      (stored { s.services y with msg := none, point := .loop }).congr rfl rfl
    split at answered
    · exact back.trans (respond (back.out out) answered)
    · cases answered
      exact back
  · cases answered

/-- `Schedule` on another thread. -/
theorem switchTo {s : State} {t u : Nat} {x y : ServiceId} (otherThread : u ≠ t) (other : y ≠ x)
    (notIdle : ServiceId.idle u ≠ x) (resume : Point) {stay : State → State}
    (stays : ∀ s : State, s.Frame (stay s) t x) : s.Frame (s.switchTo u y resume stay) t x := by
  have popped : s.Frame (s.getReadyService u).2 t x := by
    simp only [State.getReadyService]
    split
    · exact (refl s t x).congr rfl rfl
    · exact setService _ fun same => absurd same notIdle
  simp only [State.switchTo]
  split
  · exact popped.trans (stays _)
  · have left := popped.trans (setService (((s.getReadyService u).2.services y).switchOut resume
      s.curTime) fun same => absurd same other)
    exact left.trans (setThread _ otherThread)

end State.Frame

/-! ## The threads of a step -/

/-- The worker thread that takes a step. -/
def Label.thread : Label → Option Nat
  | .threadMain t | .waitSignal t | .sleepService t _ | .waitIo t _ _ | .callMethod t _ _
  | .callNotFound t _ _ | .waitResponse t | .yield t | .schedule t | .onResumePrev t
  | .onResumeCur t | .waitResumed t | .serviceLoop t | .userReturn t | .handleNotMethodCall t
  | .done t | .retire t | .threadExit t => some t
  | .tick | .launchService _ | .sendMessage _ _ _ | .sendNotFound _ _ _ | .stopService _
  | .interruptService _ | .wakeUp _ _ | .onIoReady _ _ | .runClosure _ => none

/-- A service that is being switched out from thread `t` is in the hands of no other thread. -/
theorem Coherent.switchingOut_elsewhere {yields : Bool} {s : State} {place : ServiceId → Place}
    (coherent : Coherent yields s place) {t u : Nat} {x : ServiceId}
    (switching : s.SwitchingOut t x) (other : u ≠ t) :
    (s.threads u).currentService ≠ some x ∧
      ((s.threads u).phase = .resumePrev → (s.threads u).prevService ≠ some x) := by
  have here : place x = .running t ∨ place x = .leaving t ∨ place x = .yielding t :=
    switching.imp (coherent.running t x).mp (coherent.leaving t x).mp
  constructor
  · intro current
    have there := (coherent.current_iff u x).mp current
    grind
  · intro phase previous
    have there := (coherent.leaving u x).mp ⟨previous, phase⟩
    grind

/-- The steps of other threads hold a service that is being switched out from thread `t`. -/
theorem Coherent.frame_step {yields : Bool} {s after : State} {place : ServiceId → Place}
    (coherent : Coherent yields s place) {label : Label} {t i : Nat}
    (switching : s.SwitchingOut t (.launched i))
    (launched : (s.services (.launched i)).status ≠ .created)
    (out : (s.services (.launched i)).isSwapingOut = true) (other : label.thread ≠ some t)
    (stepped : step s label = some after) : s.Frame after t (.launched i) := by
  have elsewhere : ∀ {u : Nat} {y : ServiceId}, some u ≠ some t →
      (s.threads u).currentService = some y → y ≠ .launched i := by
    rintro u y differ current rfl
    exact (coherent.switchingOut_elsewhere switching fun same => differ (congrArg some same)).1
      current
  simp only [step] at stepped
  split at stepped
  · cases stepped
  · cases label with
    | threadMain u =>
        simp only [State.threadMain] at stepped
        split at stepped
        · cases stepped
          exact (State.Frame.setService _ (by simp)).trans
            (State.Frame.setThread _ fun same => other (congrArg some same))
        · cases stepped
    | tick =>
        cases stepped
        exact (State.Frame.refl s t _).congr rfl rfl
    | launchService type =>
        cases stepped
        have different : ServiceId.launched (s.serviceIndexAlloc + 1) ≠ .launched i := by
          intro same
          have absent := coherent.unlaunched (s.serviceIndexAlloc + 1) (Nat.lt_succ_self _)
          rw [same] at absent
          exact coherent.launched_of_status launched absent
        exact State.Frame.launchService different type
    | sendMessage destination type closure =>
        obtain ⟨_, rfl, -, -, rfl⟩ := State.onService_eq_some.mp stepped
        exact State.Frame.sendMessage out _
    | sendNotFound destination type closure => exact State.Frame.sendNotFound stepped
    | stopService x =>
        obtain ⟨_, rfl, -, -, rfl⟩ := State.onService_eq_some.mp stepped
        simp only [State.stopService]
        split
        · exact State.Frame.refl s t _
        · exact State.Frame.setService_wakeup out _
            (fun same => by rw [same]; exact ⟨rfl, rfl, id⟩) _
    | interruptService x =>
        obtain ⟨_, rfl, -, -, rfl⟩ := State.onService_eq_some.mp stepped
        simp only [State.interruptService]
        split
        · exact State.Frame.wakeup out _
        · exact State.Frame.refl s t _
    | wakeUp x e =>
        obtain ⟨_, rfl, -, -, rfl⟩ := State.onService_eq_some.mp stepped
        exact State.Frame.wakeup out e
    | onIoReady x ioEvents =>
        obtain ⟨_, rfl, -, -, rfl⟩ := State.onService_eq_some.mp stepped
        simp only [State.onIoReady]
        split
        · exact State.Frame.setService_wakeup out _
            (fun same => by rw [same]; exact ⟨rfl, rfl, id⟩) _
        · exact State.Frame.refl s t _
    | waitSignal u =>
        obtain ⟨y, current, -, -, committed⟩ := State.onUser_eq_some.mp stepped
        cases committed
        exact State.Frame.commit (elsewhere other current) _
    | sleepService u milliseconds =>
        obtain ⟨y, current, -, -, committed⟩ := State.onUser_eq_some.mp stepped
        cases committed
        simp only [State.sleepService]
        split
        · exact State.Frame.setService _ fun same => absurd same (elsewhere other current)
        · exact State.Frame.commit (elsewhere other current) _
    | waitIo u fd added =>
        obtain ⟨y, current, -, -, committed⟩ := State.onUser_eq_some.mp stepped
        cases committed
        simp only [State.waitIo]
        split
        · exact State.Frame.commit (elsewhere other current) _
        · exact State.Frame.setService _ fun same => absurd same (elsewhere other current)
    | callMethod u destination withClosure =>
        obtain ⟨y, current, -, -, called⟩ := State.onUser_eq_some.mp stepped
        obtain ⟨j, rfl, -, -, rfl⟩ := State.onService_eq_some.mp called
        have sent := State.Frame.sendMessage (t := t) out
          (s.callMessage y (.launched j) withClosure)
        simp only [State.callMethod]
        split
        · rename_i middle accepted
          rw [accepted] at sent
          exact sent.trans (State.Frame.setService _ fun same =>
            absurd same (elsewhere other current))
        · rename_i middle rejected
          rw [rejected] at sent
          exact sent
    | callNotFound u destination withClosure =>
        obtain ⟨y, -, -, -, called⟩ := State.onUser_eq_some.mp stepped
        exact State.Frame.sendNotFound called
    | waitResponse u =>
        obtain ⟨y, current, -, waited⟩ := State.onCurrent_eq_some.mp stepped
        simp only [State.waitResponse] at waited
        split at waited
        · cases waited
          exact State.Frame.commit (elsewhere other current) _
        · cases waited
    | yield u =>
        obtain ⟨y, current, -, -, switched⟩ := State.onUser_eq_some.mp stepped
        cases switched
        exact State.Frame.switchTo (fun same => other (congrArg some same))
          (elsewhere other current) (by simp) _ fun s => State.Frame.refl s t _
    | schedule u =>
        obtain ⟨y, current, -, scheduled⟩ := State.onCurrent_eq_some.mp stepped
        have switched : ∀ resume stay, (∀ s : State, s.Frame (stay s) t (.launched i)) →
            s.Frame (s.switchTo u y resume stay) t (.launched i) := fun resume stay stays =>
          State.Frame.switchTo (fun same => other (congrArg some same)) (elsewhere other current)
            (by simp) resume stays
        simp only [State.schedule] at scheduled
        split at scheduled
        · cases scheduled
          exact switched _ _ fun s => (State.Frame.refl s t _).congr rfl rfl
        · cases scheduled
          exact switched _ _ fun s => (State.Frame.refl s t _).congr rfl rfl
        · cases scheduled
          exact switched _ _ fun s => State.Frame.refl s t _
        · cases scheduled
    | onResumePrev u =>
        exact State.Frame.onResumePrev (fun same => other (congrArg some same))
          (coherent.switchingOut_elsewhere switching fun same => other (congrArg some same)).2
          stepped
    | onResumeCur u =>
        simp only [State.onResumeCur] at stepped
        split at stepped
        · rename_i y current phase
          cases stepped
          exact (State.Frame.commit (elsewhere other current) _).trans
            (State.Frame.setThread _ fun same => other (congrArg some same))
        · cases stepped
    | waitResumed u =>
        obtain ⟨y, current, -, resumed⟩ := State.onCurrent_eq_some.mp stepped
        simp only [State.waitResumed] at resumed
        split at resumed
        · cases resumed
          exact State.Frame.commit (elsewhere other current) _
        · cases resumed
    | serviceLoop u =>
        obtain ⟨y, current, -, looped⟩ := State.onCurrent_eq_some.mp stepped
        exact State.Frame.serviceLoop (elsewhere other current) looped
    | userReturn u =>
        obtain ⟨y, current, -, -, returned⟩ := State.onUser_eq_some.mp stepped
        exact State.Frame.userReturn (elsewhere other current) returned
    | handleNotMethodCall u =>
        obtain ⟨y, -, -, -, handled⟩ := State.onUser_eq_some.mp stepped
        simp only [State.handleNotMethodCall] at handled
        split at handled
        · split at handled
          · cases handled
          · cases handled
            exact (State.Frame.refl s t _).congr rfl rfl
        · cases handled
    | done u =>
        obtain ⟨y, current, -, answered⟩ := State.onCurrent_eq_some.mp stepped
        exact State.Frame.done out (elsewhere other current) answered
    | runClosure m =>
        simp only [State.runClosure] at stepped
        split at stepped
        · cases stepped
        · split at stepped
          · have logged : s.Frame
                ({ s with closures := s.closures.erase m }.addLog (.closureRun m)) t (.launched i) :=
              (State.Frame.refl s t _).congr rfl rfl
            exact logged.trans (State.Frame.respond (logged.out out) stepped)
          · cases stepped
    | retire u =>
        obtain ⟨y, current, -, retired⟩ := State.onCurrent_eq_some.mp stepped
        have stored := fun service => State.Frame.setService (s := s) (t := t) service
          fun same => absurd same (elsewhere other current)
        simp only [State.retire] at retired
        split at retired
        · cases retired
          exact stored _
        · cases retired
          exact stored _
        · cases retired
          exact (stored _).congr rfl rfl
        · cases retired
    | threadExit u =>
        obtain ⟨y, current, -, exited⟩ := State.onCurrent_eq_some.mp stepped
        simp only [State.threadExit] at exited
        split at exited
        · cases exited
          exact (State.Frame.setService _ fun same => absurd same (elsewhere other current)).trans
            (State.Frame.setThread _ fun same => other (congrArg some same))
        · cases exited

/-- The steps of thread `t` other than its `OnResume` of the previous service. -/
theorem step_of_thread {s after : State} {label : Label} {t : Nat}
    (own : label.thread = some t) (other : label ≠ .onResumePrev t)
    (stepped : step s label = some after) :
    (s.threads t).currentService = none ∨ (s.threads t).phase = .resumeCur ∨
      ∃ x, (s.threads t).currentService = some x ∧ (s.threads t).phase = .run ∧
        ((∀ events caller, (s.services x).point ≠ .switching events caller) ∨
          s.schedule t x (s.services x) = some after) := by
  have user : ∀ {act : ServiceId → Service → Option State}, s.onUser t act = some after →
      ∃ x, (s.threads t).currentService = some x ∧ (s.threads t).phase = .run ∧
        ((∀ events caller, (s.services x).point ≠ .switching events caller) ∨
          s.schedule t x (s.services x) = some after) := by
    intro act acted
    obtain ⟨x, current, phase, point, -⟩ := State.onUser_eq_some.mp acted
    exact ⟨x, current, phase, Or.inl (by simp [point])⟩
  simp only [step] at stepped
  split at stepped
  · cases stepped
  · cases label with
    | threadMain u =>
        cases own
        simp only [State.threadMain] at stepped
        split at stepped
        · exact Or.inl ‹_›
        · cases stepped
    | waitSignal u => cases own; exact Or.inr (Or.inr (user stepped))
    | sleepService u milliseconds => cases own; exact Or.inr (Or.inr (user stepped))
    | waitIo u fd added => cases own; exact Or.inr (Or.inr (user stepped))
    | callMethod u destination withClosure => cases own; exact Or.inr (Or.inr (user stepped))
    | callNotFound u destination withClosure => cases own; exact Or.inr (Or.inr (user stepped))
    | yield u => cases own; exact Or.inr (Or.inr (user stepped))
    | userReturn u => cases own; exact Or.inr (Or.inr (user stepped))
    | handleNotMethodCall u => cases own; exact Or.inr (Or.inr (user stepped))
    | onResumePrev u => cases own; exact absurd rfl other
    | onResumeCur u =>
        cases own
        simp only [State.onResumeCur] at stepped
        split at stepped
        · exact Or.inr (Or.inl ‹_›)
        · cases stepped
    | schedule u =>
        cases own
        obtain ⟨x, current, phase, scheduled⟩ := State.onCurrent_eq_some.mp stepped
        exact Or.inr (Or.inr ⟨x, current, phase, Or.inr scheduled⟩)
    | waitResponse u =>
        cases own
        obtain ⟨x, current, phase, acted⟩ := State.onCurrent_eq_some.mp stepped
        refine Or.inr (Or.inr ⟨x, current, phase, Or.inl fun events caller point => ?_⟩)
        simp [State.waitResponse, point] at acted
    | waitResumed u =>
        cases own
        obtain ⟨x, current, phase, acted⟩ := State.onCurrent_eq_some.mp stepped
        refine Or.inr (Or.inr ⟨x, current, phase, Or.inl fun events caller point => ?_⟩)
        simp [State.waitResumed, point] at acted
    | serviceLoop u =>
        cases own
        obtain ⟨x, current, phase, acted⟩ := State.onCurrent_eq_some.mp stepped
        refine Or.inr (Or.inr ⟨x, current, phase, Or.inl fun events caller point => ?_⟩)
        simp [State.serviceLoop, point] at acted
    | done u =>
        cases own
        obtain ⟨x, current, phase, acted⟩ := State.onCurrent_eq_some.mp stepped
        refine Or.inr (Or.inr ⟨x, current, phase, Or.inl fun events caller point => ?_⟩)
        simp [State.done, point] at acted
    | retire u =>
        cases own
        obtain ⟨x, current, phase, acted⟩ := State.onCurrent_eq_some.mp stepped
        refine Or.inr (Or.inr ⟨x, current, phase, Or.inl fun events caller point => ?_⟩)
        simp [State.retire, point] at acted
    | threadExit u =>
        cases own
        obtain ⟨x, current, phase, acted⟩ := State.onCurrent_eq_some.mp stepped
        refine Or.inr (Or.inr ⟨x, current, phase, Or.inl fun events caller point => ?_⟩)
        simp [State.threadExit, point] at acted
    | tick | launchService _ | sendMessage _ _ _ | sendNotFound _ _ _ | stopService _
    | interruptService _ | wakeUp _ _ | onIoReady _ _ | runClosure _ => cases own

/-! ## The note survives -/

/-- A service on its way out of thread `t` with a noted wake-up. -/
theorem Coherent.due_waiting {yields : Bool} {s : State} {place : ServiceId → Place}
    (coherent : Coherent yields s place) {t i : Nat} (due : s.Due t (.launched i)) :
    (s.services (.launched i)).isSwapingOut = true ∧
      ((s.threads t).phase = .run →
        ∃ events caller, (s.services (.launched i)).point = .switching events caller) := by
  have settled : (s.services (.launched i)).Settled yields (place (.launched i)) :=
    coherent.settled (.launched i)
  rcases due.switching with running | leaving
  · rw [(coherent.running t _).mp running] at settled
    rcases settled with ⟨-, out, caller, point, -⟩ | ⟨unwaited, -, -⟩
    · exact ⟨out, fun _ => ⟨_, caller, point⟩⟩
    · exact absurd due.signal (by simp [unwaited.signal])
  · have notRunning : (s.threads t).phase ≠ .run := by simp [leaving.2]
    rcases (coherent.leaving t _).mp leaving with here | here
    · rw [here] at settled
      exact ⟨settled.1, fun phase => absurd phase notRunning⟩
    · rw [here] at settled
      exact ⟨settled.2.2.1, fun phase => absurd phase notRunning⟩

/-- `Schedule` of a running service switches away from it. -/
theorem Coherent.switchTo_leaves {yields : Bool} {s : State} {place : ServiceId → Place}
    (coherent : Coherent yields s place) {t i : Nat}
    (running : place (.launched i) = .running t) (resume : Point) (stay : State → State) :
    let after := s.switchTo t (.launched i) resume stay
    (after.threads t).prevService = some (.launched i) ∧
      (after.threads t).phase = .resumePrev ∧
        after.services (.launched i) =
          (s.services (.launched i)).switchOut resume s.curTime := by
  have different : ServiceId.launched i ≠ (s.getReadyService t).1 := by
    cases queue : s.runQueue with
    | nil => simp [State.getReadyService_nil queue]
    | cons next rest =>
        rw [State.getReadyService_cons queue]
        rintro rfl
        have queued := (coherent.queued (.launched i)).mp (by simp [queue])
        rw [running] at queued
        cases queued
  have unchanged : (s.getReadyService t).2.services (.launched i) = s.services (.launched i) := by
    cases queue : s.runQueue with
    | nil => simp [State.getReadyService_nil queue, State.setService]
    | cons next rest => rw [State.getReadyService_cons queue]
  simp [State.switchTo, different, State.setThread, State.setService, unchanged]

theorem State.Due.step {s after : State} {label : Label} {t i : Nat} (placed : Placed true s)
    (due : s.Due t (.launched i)) (other : label ≠ .onResumePrev t)
    (stepped : Mcast.step s label = some after) : after.Due t (.launched i) := by
  obtain ⟨place, coherent⟩ := placed
  obtain ⟨out, atSwitch⟩ := coherent.due_waiting due
  by_cases own : label.thread = some t
  · rcases step_of_thread own other stepped with vacant | resuming | ⟨y, current, phase, acted⟩
    · rcases due.switching with ⟨current, -⟩ | ⟨previous, -⟩
      · simp [vacant] at current
      · simp [coherent.vacant t vacant] at previous
    · rcases due.switching with ⟨-, phase⟩ | ⟨-, phase⟩ <;> simp [resuming] at phase
    · obtain rfl : y = .launched i := by
        rcases due.switching with ⟨here, -⟩ | ⟨-, elsewhere⟩
        · rw [current] at here
          exact Option.some.inj here
        · simp [phase] at elsewhere
      obtain ⟨events, caller, point⟩ := atSwitch phase
      rcases acted with elsewhere | scheduled
      · exact absurd point (elsewhere events caller)
      · simp only [State.schedule, point] at scheduled
        cases scheduled
        obtain ⟨previous, resumes, left⟩ := coherent.switchTo_leaves
          ((coherent.running t _).mp ⟨current, phase⟩) (.waking events caller)
          fun s => s.abort .waitScheduled
        refine ⟨Or.inr ⟨previous, resumes⟩, ?_, ?_⟩
        · rw [left]
          exact due.blocked
        · rw [left]
          exact due.signal
  · have frame := coherent.frame_step due.switching (by simp [due.blocked]) out own stepped
    refine ⟨?_, frame.held.status.trans due.blocked, frame.held.signal due.signal⟩
    rw [State.SwitchingOut, frame.thread]
    exact due.switching

theorem State.Due.onResumePrev {s after : State} {t i : Nat} (placed : Placed true s)
    (due : s.Due t (.launched i)) (stepped : Mcast.step s (.onResumePrev t) = some after) :
    .launched i ∈ after.runQueue ∧ (after.services (.launched i)).status = .ready := by
  obtain ⟨place, coherent⟩ := placed
  obtain ⟨out, -⟩ := coherent.due_waiting due
  simp only [Mcast.step] at stepped
  split at stepped
  · cases stepped
  · simp only [State.onResumePrev] at stepped
    split at stepped
    · cases stepped
    · rename_i phase
      have previous : (s.threads t).prevService = some (.launched i) := by
        rcases due.switching with ⟨-, running⟩ | ⟨previous, -⟩
        · simp [running] at phase
        · exact previous
      rw [previous] at stepped
      split at stepped
      · cases stepped
      · simp_all
      · rename_i p _ same
        cases same
        rw [if_neg (by simp [out]), Service.onResumePrev_signalled due.signal due.blocked]
          at stepped
        cases stepped
        simp [State.putReadyService, State.setService]

/-- A noted wake-up is found by the next `OnResume` of the thread. -/
theorem State.Due.queued_at_next_resume {s : State} {t i : Nat} (placed : Placed true s)
    (due : s.Due t (.launched i)) : s.QueuedAtNextResume t (.launched i) := by
  intro labels middle after absent execution stepped
  induction labels generalizing s with
  | nil =>
      obtain rfl : s = middle := by simpa using execution
      exact due.onResumePrev placed stepped
  | cons label labels ih =>
      obtain ⟨next, first, rest⟩ := Transition.run_cons_eq_some.mp execution
      have other : label ≠ .onResumePrev t := fun same => absent (by simp [same])
      exact ih (placed.step (Or.inl rfl) first) (due.step placed other first)
        (fun later => absent (List.mem_cons_of_mem label later)) rest

/-! ## Events that a wait clears -/

/-- A wait that leaves `after` has returned every event that it cleared, and has cleared none if it
has blocked. -/
structure Service.ReturnsCleared (before after : Service) : Prop where
  returned : (before.events &&& ~~~after.events) &&& ~~~after.revents = 0
  blocked : ∀ events caller, after.point = .switching events caller → after.events = before.events

theorem Service.ReturnsCleared.of_events {before after : Service}
    (same : after.events = before.events) : before.ReturnsCleared after :=
  ⟨by rw [same]; simp, fun _ _ _ => same⟩

theorem Service.returnFrom_events {service after : Service} {revents : ServiceEvent}
    {caller : Return} (returned : service.returnFrom revents caller = .ok after) :
    after.events = service.events ∧ after.revents = revents ∧
      ∀ events caller, after.point ≠ .switching events caller := by
  cases caller with
  | user =>
      cases returned
      exact ⟨rfl, rfl, by simp⟩
  | loop =>
      simp only [returnFrom] at returned
      split at returned
      · cases returned
        exact ⟨rfl, rfl, by simp⟩
      · cases returned
  | call =>
      simp only [returnFrom] at returned
      split at returned
      · cases returned
        exact ⟨rfl, rfl, by simp⟩
      · cases returned

theorem Service.takeEvents_returns {service after : Service} {events : ServiceEvent}
    {caller : Return} (taken : service.takeEvents events caller = .ok after) :
    service.ReturnsCleared after := by
  obtain ⟨left, returned, point⟩ := returnFrom_events taken
  refine ⟨?_, fun events caller at_ => absurd at_ (point events caller)⟩
  rw [left, returned]
  ext index
  simp only [BitVec.getElem_and, BitVec.getElem_not]
  cases service.events[index] <;> simp

theorem Service.waitLocked_returns {service after : Service} {events : ServiceEvent}
    {caller : Return} (waited : service.waitLocked events caller = .ok after) :
    service.ReturnsCleared after := by
  simp only [waitLocked] at waited
  split at waited
  · cases waited
  · split at waited
    · exact .of_events (returnFrom_events waited).1
    · split at waited
      · have returned := takeEvents_returns waited
        exact ⟨returned.returned, returned.blocked⟩
      · cases waited
        exact .of_events rfl

theorem Service.waitResumed_returns {service after : Service} {events : ServiceEvent}
    {caller : Return} (resumed : service.waitResumed events caller = .ok after) :
    service.ReturnsCleared after := by
  simp only [waitResumed] at resumed
  split at resumed
  · exact takeEvents_returns resumed
  · cases resumed
    exact .of_events rfl

/-! ## Executions -/

/-- The wake-ups of a state are neither lost nor spurious. -/
structure State.WakeupsKept (s : State) : Prop where
  /-- A blocked service has a requested event pending exactly when it has been signalled. -/
  signalled : ∀ i, (s.services (.launched i)).status = .blocked →
    ((s.services (.launched i)).events &&& (s.services (.launched i)).waitEvents ≠ 0 ↔
      (s.services (.launched i)).wakeupSignal = true)
  /-- A signalled blocked service is being switched out by exactly one thread, and the next
  `OnResume` of that thread queues it. -/
  due : ∀ i, (s.services (.launched i)).status = .blocked →
    (s.services (.launched i)).wakeupSignal = true →
      (s.services (.launched i)).isSwapingOut = true ∧
        (∃! t, s.SwitchingOut t (.launched i)) ∧
          ∀ t, s.SwitchingOut t (.launched i) → s.QueuedAtNextResume t (.launched i)
  message : ∀ i, (s.services (.launched i)).status = .blocked →
    (s.services (.launched i)).waitEvents &&& kMessage ≠ 0 →
      (s.services (.launched i)).msgQueue ≠ [] → (s.services (.launched i)).wakeupSignal = true
  stop : ∀ i, (s.services (.launched i)).status = .blocked →
    (s.services (.launched i)).waitEvents &&& kServiceStop ≠ 0 →
      (s.services (.launched i)).stopping = true → (s.services (.launched i)).wakeupSignal = true
  /-- `Wait_Locked` comes back from `Schedule` with a requested event and does not block again. -/
  pending : ∀ t x events caller, (s.threads t).currentService = some x →
    (s.threads t).phase = .run → (s.services x).point = .waking events caller →
      (s.services x).events &&& events ≠ 0 ∧
        (s.services x).waitResumed events caller = (s.services x).takeEvents events caller

/-- A blocked service is parked or on its way out of a thread. -/
theorem Coherent.blocked_waiting {yields : Bool} {s : State} {place : ServiceId → Place}
    (coherent : Coherent yields s place) {i : Nat}
    (blocked : (s.services (.launched i)).status = .blocked) :
    (s.services (.launched i)).Waiting ∧
      ((s.services (.launched i)).wakeupSignal = true →
        ∃ t, place (.launched i) = .running t ∨ place (.launched i) = .leaving t) := by
  have settled : (s.services (.launched i)).Settled yields (place (.launched i)) :=
    coherent.settled (.launched i)
  cases at_ : place (.launched i) with
  | absent =>
      rw [at_] at settled
      have created : (s.services (.launched i)).status = .created := settled
      simp [blocked] at created
  | parked =>
      rw [at_] at settled
      exact ⟨settled.1, fun signal => by simp [settled.2.2.1] at signal⟩
  | queued =>
      rw [at_] at settled
      have ready := Service.Awake.status settled
      simp [blocked] at ready
  | resuming t =>
      rw [at_] at settled
      have ready := Service.Awake.status settled
      simp [blocked] at ready
  | running t =>
      rw [at_] at settled
      refine ⟨?_, fun _ => ⟨t, Or.inl rfl⟩⟩
      rcases settled with ⟨waiting, -⟩ | ⟨-, -, atPoint⟩
      · exact waiting
      · cases point : (s.services (.launched i)).point <;>
          simp [Service.StatusAtPoint, point, blocked] at atPoint
  | leaving t =>
      rw [at_] at settled
      refine ⟨?_, fun _ => ⟨t, Or.inr rfl⟩⟩
      rcases settled with ⟨-, ⟨waiting, -⟩ | ⟨-, dead, -⟩⟩
      · exact waiting
      · simp [blocked] at dead
  | yielding t =>
      rw [at_] at settled
      have running := settled.2.2.2.1
      simp [blocked] at running
  | stranded =>
      rw [at_] at settled
      have running := settled.2.2.2.1
      simp [blocked] at running
  | gone =>
      rw [at_] at settled
      have dead := settled.2.1
      simp [blocked] at dead
  | resting =>
      rw [at_] at settled
      exact settled.elim

theorem Coherent.exists_switchingOut {yields : Bool} {s : State} {place : ServiceId → Place}
    (coherent : Coherent yields s place) {i : Nat}
    (here : ∃ t, place (.launched i) = .running t ∨ place (.launched i) = .leaving t) :
    ∃! t, s.SwitchingOut t (.launched i) := by
  obtain ⟨t, here⟩ := here
  have switching : s.SwitchingOut t (.launched i) :=
    here.imp (coherent.running t _).mpr fun leaving => (coherent.leaving t _).mpr (Or.inl leaving)
  refine ⟨t, switching, fun u other => ?_⟩
  by_contra different
  obtain ⟨current, previous⟩ := coherent.switchingOut_elsewhere switching different
  rcases other with ⟨there, -⟩ | ⟨there, phase⟩
  · exact current there
  · exact previous phase there

theorem Coherent.waking_pending {yields : Bool} {s : State} {place : ServiceId → Place}
    (coherent : Coherent yields s place) {t : Nat} {x : ServiceId}
    (current : (s.threads t).currentService = some x) (phase : (s.threads t).phase = .run)
    {events : ServiceEvent} {caller : Return}
    (point : (s.services x).point = .waking events caller) :
    (s.services x).events &&& events ≠ 0 := by
  have settled := coherent.settled x
  rw [(coherent.running t x).mp ⟨current, phase⟩] at settled
  cases x with
  | idle u =>
      have idle : (s.services (.idle u)).point = .idle := settled.2.2
      simp [point] at idle
  | launched i =>
      have settled : (s.services (.launched i)).Settled yields (.running t) := settled
      obtain ⟨-, -, atPoint⟩ := settled.unwaited_at (by simp [point])
      rw [Service.StatusAtPoint, point] at atPoint
      exact atPoint.2.1

theorem Placed.wakeupsKept {s : State} (placed : Placed true s) : s.WakeupsKept := by
  obtain ⟨place, coherent⟩ := placed
  refine ⟨?_, ?_, ?_, ?_, ?_⟩
  · intro i blocked
    exact (coherent.blocked_waiting blocked).1.signal.symm
  · intro i blocked signal
    obtain ⟨-, here⟩ := coherent.blocked_waiting blocked
    have unique := coherent.exists_switchingOut (here signal)
    have queues : ∀ t, s.SwitchingOut t (.launched i) → s.QueuedAtNextResume t (.launched i) :=
      fun t switching =>
        State.Due.queued_at_next_resume ⟨place, coherent⟩ ⟨switching, blocked, signal⟩
    obtain ⟨t, switching⟩ := unique.exists
    exact ⟨(coherent.due_waiting ⟨switching, blocked, signal⟩).1, unique, queues⟩
  · intro i blocked
    exact (coherent.blocked_waiting blocked).1.message
  · intro i blocked
    exact (coherent.blocked_waiting blocked).1.stop
  · intro t x events caller current phase point
    have hit := coherent.waking_pending current phase point
    refine ⟨hit, ?_⟩
    rw [Service.waitResumed, if_pos (by rw [BitVec.and_comm]; exact hit)]

/-- In every execution wake-ups are neither lost nor spurious, and `Wait_Locked` clears no event
that it does not return. -/
theorem wakeups_kept_of_run {labels : List Label} {s : State}
    (execution : Transition.run step initial labels = some s) :
    s.WakeupsKept ∧ ∀ (service after : Service) (events : ServiceEvent) (caller : Return),
      service.waitLocked events caller = .ok after ∨
        service.waitResumed events caller = .ok after → service.ReturnsCleared after := by
  refine ⟨(placed_of_run execution).wakeupsKept, ?_⟩
  rintro service after events caller (waited | resumed)
  · exact Service.waitLocked_returns waited
  · exact Service.waitResumed_returns resumed

/-- A user thread blocks in `WaitSignal` and is signalled before its worker switches away. -/
def signalTrace : List Label :=
  [.threadMain 0, .onResumePrev 0, .onResumeCur 0, .launchService .userThread, .schedule 0,
    .onResumePrev 0, .onResumeCur 0, .waitSignal 0, .wakeUp (.launched 17) kSignal]

theorem wakeups_kept_of_run_signalTrace :
    ∃ s, Transition.run step initial signalTrace = some s ∧
      (s.services (.launched 17)).status = .blocked ∧
        (s.services (.launched 17)).wakeupSignal = true ∧ s.WakeupsKept :=
  ⟨_, rfl, rfl, rfl, (@wakeups_kept_of_run signalTrace _ rfl).1⟩

end Mcast
