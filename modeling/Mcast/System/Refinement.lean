import Mcast.System.Invariant
import Mcast.System.Ledger

/-!
# The scheduler refines the ledger

Every step of the scheduler is one step of the ledger, so that a property of messages in all
interleavings is an invariant of the ledger.
-/

namespace Mcast

open ServiceEvent

/-! ## The view of a scheduler state -/

def Return.stage : Return → Stage
  | .user => .user
  | .loop => .loop
  | .call => .calling

def Point.stage : Point → Stage
  | .entry => .entry
  | .user | .deadlocked => .user
  | .loop => .loop
  | .switching _ caller | .waking _ caller => caller.stage
  | .calling => .calling
  | .answering => .answering
  | .idle => .idle
  | .stopping => .stopping
  | .retiring => .retiring
  | .removing => .removing
  | .finished | .never => .closed

def Service.desk (service : Service) (registered : Bool) : Desk where
  launched := service.status ≠ .created
  type := service.type
  queue := service.msgQueue
  msg := service.msg
  call := service.call
  stopping := service.stopping
  dead := service.status = .dead
  response := service.events &&& kResponse ≠ 0
  registered := registered
  stage := service.point.stage

def State.desk (s : State) : ServiceId → Desk
  | .idle _ => {}
  | .launched i => (s.services (.launched i)).desk (s.registered (.launched i))

/-- The view of a state; idle services take no part in it. -/
def State.ledger (s : State) : Ledger where
  desks := s.desk
  nextMessage := s.nextMessage
  closures := s.closures
  log := s.log

namespace State

theorem ledger_setService (s : State) (i : Nat) (service : Service) :
    (s.setService (.launched i) service).ledger =
      s.ledger.set (.launched i) (service.desk (s.registered (.launched i))) := by
  have desks : (s.setService (.launched i) service).desk =
      Function.update s.desk (.launched i) (service.desk (s.registered (.launched i))) := by
    funext y
    by_cases same : y = .launched i
    · subst same
      simp [desk, setService]
    · cases y with
      | idle t => simp [desk]
      | launched j =>
          have other : ServiceId.launched j ≠ .launched i := same
          simp [desk, setService, other]
  exact congrArg (fun desks => Ledger.mk desks s.nextMessage s.closures s.log) desks

theorem ledger_setService_idle (s : State) (t : Nat) (service : Service) :
    (s.setService (.idle t) service).ledger = s.ledger := by
  have desks : (s.setService (.idle t) service).desk = s.desk := by
    funext y
    cases y with
    | idle u => rfl
    | launched j => simp [desk, setService]
  exact congrArg (fun desks => Ledger.mk desks s.nextMessage s.closures s.log) desks

/-- A store that the ledger does not see. -/
theorem ledger_setService_same (s : State) (x : ServiceId) (service : Service)
    (same : ∀ registered, service.desk registered = (s.services x).desk registered) :
    (s.setService x service).ledger = s.ledger := by
  cases x with
  | idle t => exact s.ledger_setService_idle t service
  | launched i =>
      rw [ledger_setService, same]
      exact s.ledger.set_self (.launched i)

theorem ledger_removeService (s : State) (i : Nat) :
    (s.removeService (.launched i)).ledger =
      s.ledger.set (.launched i) { s.ledger.desks (.launched i) with registered := false } := by
  have desks : (s.removeService (.launched i)).desk =
      Function.update s.desk (.launched i) { s.desk (.launched i) with registered := false } := by
    funext y
    by_cases same : y = .launched i
    · subst same
      simp only [desk, removeService, Function.update_self]
      rfl
    · cases y with
      | idle t => simp [desk]
      | launched j =>
          have other : ServiceId.launched j ≠ .launched i := same
          simp [desk, removeService, other]
  exact congrArg (fun desks => Ledger.mk desks s.nextMessage s.closures s.log) desks

@[simp] theorem ledger_putReadyService (s : State) (x : ServiceId) :
    (s.putReadyService x).ledger = s.ledger := by
  cases x <;> rfl

end State

theorem Service.desk_wakeupLocked (service : Service) (e : ServiceEvent) (registered : Bool) :
    (service.wakeupLocked e).service.desk registered =
      { service.desk registered with
        response := decide ((service.events ||| e) &&& kResponse ≠ 0) } := by
  simp only [wakeupLocked]
  split
  · rfl
  · split
    · rfl
    · split
      · rename_i blocked
        have status : service.status = .blocked := blocked
        simp [desk, status]
      · rfl

namespace State

theorem ledger_wakeup (s : State) (i : Nat) (e : ServiceEvent) :
    (s.wakeup (.launched i) e).ledger =
      s.ledger.set (.launched i)
        { s.ledger.desks (.launched i) with
          response :=
            decide (((s.services (.launched i)).events ||| e) &&& kResponse ≠ 0) } := by
  have stored : (s.wakeup (.launched i) e).ledger =
      (s.setService (.launched i) ((s.services (.launched i)).wakeupLocked e).service).ledger := by
    simp only [wakeup]
    split
    · simp
    · rfl
  rw [stored, ledger_setService, Service.desk_wakeupLocked]
  rfl

/-- A wake-up with other events is not seen by the ledger. -/
theorem ledger_wakeup_other (s : State) (i : Nat) {e : ServiceEvent}
    (other : e &&& kResponse = 0) : (s.wakeup (.launched i) e).ledger = s.ledger := by
  have same : ((s.services (.launched i)).events ||| e) &&& kResponse =
      (s.services (.launched i)).events &&& kResponse := by
    rw [BitVec.and_or_distrib_right, other]
    simp
  rw [ledger_wakeup, same]
  exact s.ledger.set_self (.launched i)

theorem ledger_wakeup_response (s : State) (i : Nat) {e : ServiceEvent}
    (hit : e &&& kResponse ≠ 0) :
    (s.wakeup (.launched i) e).ledger =
      s.ledger.set (.launched i) { s.ledger.desks (.launched i) with response := true } := by
  have raised : ((s.services (.launched i)).events ||| e) &&& kResponse ≠ 0 :=
    (Service.raised_ne_zero _ _ _).mpr (Or.inr (by rw [BitVec.and_comm]; exact hit))
  rw [ledger_wakeup, decide_eq_true raised]

/-- The ledger of an accepted message. -/
theorem ledger_sendMessage_accepted {s : State} {m : Message} {i : Nat}
    (destination : m.destination = .launched i) (sent : (s.sendMessage m).2 = true) :
    (s.sendMessage m).1.ledger = s.ledger.accept m ∧
      (s.services m.destination).stopping = false := by
  simp only [sendMessage] at sent ⊢
  split at sent
  · cases sent
  · rename_i refused
    rw [if_neg refused]
    refine ⟨?_, by simp_all⟩
    have queued := ledger_setService { s with nextMessage := s.nextMessage + 1 } i
      { s.services (.launched i) with msgQueue := (s.services (.launched i)).msgQueue ++ [m] }
    have woken := fun t : State => t.ledger_wakeup_other i (e := kMessage) (by decide)
    rw [Ledger.accept, destination]
    split
    · exact congrArg (fun l => l.note (.accepted m)) ((woken _).trans queued)
    · exact congrArg (fun l => l.note (.accepted m)) queued

theorem ledger_sendMessage_rejected {s : State} {m : Message}
    (sent : (s.sendMessage m).2 = false) :
    (s.sendMessage m).1.ledger = s.ledger.reject m := by
  simp only [sendMessage] at sent ⊢
  split at sent
  · rename_i refused
    rw [if_pos refused]
    rfl
  · cases sent

theorem ledger_sendNotFound {s after : State} {m : Message}
    (sent : s.sendNotFound m = some after) : after.ledger = s.ledger.reject m := by
  simp only [sendNotFound] at sent
  split at sent
  · cases sent
  · split at sent
    · cases sent
    · cases sent
      rfl

theorem ledger_respond {s after : State} {src : ServiceId} (responded : s.respond src = some after) :
    after.ledger = s.ledger.respond src := by
  simp only [respond] at responded
  split at responded
  · rename_i registered
    obtain ⟨i, rfl, -, -, rfl⟩ := onService_eq_some.mp responded
    have present : (s.ledger.desks (.launched i)).registered = true := registered
    rw [Ledger.respond, if_pos present]
    exact s.ledger_wakeup_response i (by decide)
  · rename_i missing
    cases responded
    have absent : ¬ (s.ledger.desks src).registered = true := by
      cases src with
      | idle t => exact Bool.false_ne_true
      | launched i => exact missing
    rw [Ledger.respond, if_neg absent]

end State

/-! ## Waits -/

namespace Service

theorem and_not_and_response {events pending : ServiceEvent} (other : events &&& kResponse = 0) :
    (pending &&& ~~~events) &&& kResponse = pending &&& kResponse := by
  ext index inside
  have bit : (events &&& kResponse)[index] = false := by rw [other]; simp
  simp only [BitVec.getElem_and, BitVec.getElem_not] at bit ⊢
  revert bit
  cases pending[index] <;> cases events[index] <;> cases kResponse[index] <;> simp

/-- A wait that does not end a call keeps the desk. -/
theorem desk_takeEvents {service after : Service} {events : ServiceEvent} {caller : Return}
    (notCall : caller ≠ .call) (other : events &&& kResponse = 0)
    (stage : service.point.stage = caller.stage)
    (taken : service.takeEvents events caller = .ok after) (registered : Bool) :
    after.desk registered = service.desk registered := by
  have response := @and_not_and_response events service.events other
  cases caller with
  | user =>
      cases taken
      simp only [desk, response, stage]
      rfl
  | loop =>
      simp only [takeEvents, returnFrom] at taken
      split at taken
      · cases taken
        simp only [desk, response, stage]
        rfl
      · cases taken
  | call => exact absurd rfl notCall

theorem desk_returnFrom {service after : Service} {revents : ServiceEvent} {caller : Return}
    (notCall : caller ≠ .call) (stage : service.point.stage = caller.stage)
    (returned : service.returnFrom revents caller = .ok after) (registered : Bool) :
    after.desk registered = service.desk registered := by
  cases caller with
  | user =>
      cases returned
      simp only [desk, stage]
      rfl
  | loop =>
      simp only [returnFrom] at returned
      split at returned
      · cases returned
        simp only [desk, stage]
        rfl
      · cases returned
  | call => exact absurd rfl notCall

theorem desk_block {service : Service} {events : ServiceEvent} {caller : Return}
    (running : service.status = .running) (stage : service.point.stage = caller.stage)
    (registered : Bool) :
    (service.block events caller).desk registered = service.desk registered := by
  simp only [desk, block, running, stage]
  rfl

theorem desk_waitLocked {service after : Service} {events : ServiceEvent} {caller : Return}
    (notCall : caller ≠ .call) (other : events &&& kResponse = 0)
    (stage : service.point.stage = caller.stage)
    (waited : service.waitLocked events caller = .ok after) (registered : Bool) :
    after.desk registered = service.desk registered := by
  simp only [waitLocked] at waited
  split at waited
  · cases waited
  · rename_i running
    split at waited
    · exact @desk_returnFrom { service with waitEvents := 0 } _ _ _ notCall stage waited registered
    · split at waited
      · exact @desk_takeEvents { service with waitEvents := 0 } _ _ _ notCall other stage waited
          registered
      · cases waited
        exact @desk_block { service with waitEvents := 0 } _ _ (not_not.mp running) stage registered

/-- The wait of a call keeps the desk or takes the pending response. -/
theorem desk_takeResponse {service after : Service}
    (taken : service.takeEvents kResponse .call = .ok after) (registered : Bool) :
    (service.desk registered).response = true ∧
      after.desk registered =
        { service.desk registered with response := false, call := none, stage := .user } := by
  simp only [takeEvents, returnFrom] at taken
  split at taken
  · rename_i hit
    cases taken
    have cleared : (service.events &&& ~~~kResponse) &&& kResponse = 0 := by
      rw [BitVec.and_assoc]
      simp [show ~~~kResponse &&& kResponse = 0 by decide]
    rw [BitVec.and_assoc, BitVec.and_self] at hit
    exact ⟨decide_eq_true hit, by simp [desk, cleared, Point.stage]⟩
  · cases taken

theorem desk_waitLocked_call {service after : Service} (stage : service.point.stage = .calling)
    (waited : service.waitLocked kResponse .call = .ok after) (registered : Bool) :
    after.desk registered = service.desk registered ∨
      (service.desk registered).response = true ∧
        after.desk registered =
          { service.desk registered with response := false, call := none, stage := .user } := by
  simp only [waitLocked] at waited
  split at waited
  · cases waited
  · rename_i running
    split at waited
    · rename_i stop
      exact absurd (by decide) stop.2
    · split at waited
      · exact Or.inr (@desk_takeResponse { service with waitEvents := 0 } _ waited registered)
      · cases waited
        exact Or.inl (@desk_block { service with waitEvents := 0 } kResponse .call
          (not_not.mp running) stage registered)

end Service

/-! ## Steps -/

/-- The labels that a policy allows in a state: whether code other than answers raises `kResponse`,
and whether a service that is not stopping receives messages that it never handles. -/
def Policy.permits (policy : Policy) (s : State) : Label → Bool
  | .wakeUp _ e => policy.stray || e &&& kResponse == 0
  | .sendMessage destination _ _ =>
      policy.misdirected || (s.services destination).stopping ||
        (s.services destination).type != .userThread
  | .callMethod _ destination _ =>
      policy.misdirected || (s.services destination).stopping ||
        (s.services destination).type == .methodCall
  | _ => true

namespace Ledger

theorem Step.of_eq {policy : Policy} {l after : Ledger} (same : after = l) :
    Step policy l after := by
  rw [same]
  exact .quiet

end Ledger

namespace State

/-- A wait that the ledger does not see. -/
theorem ledger_commit_same {s : State} {x : ServiceId} {outcome : Except Check Service}
    (same : ∀ after, outcome = .ok after →
      ∀ registered, after.desk registered = (s.services x).desk registered) :
    (s.commit x outcome).ledger = s.ledger := by
  cases outcome with
  | error check => rfl
  | ok after =>
      have desk := same after rfl
      have call : after.call = (s.services x).call := congrArg Desk.call (desk false)
      have stored := s.ledger_setService_same x after desk
      simp only [commit, call]
      cases (s.services x).call <;> exact stored

/-- A wait that ends a call. -/
theorem ledger_commit_return {s : State} {i : Nat} {after : Service} {m : Message}
    (call : (s.services (.launched i)).call = some m)
    (desk : after.desk (s.registered (.launched i)) =
      { (s.services (.launched i)).desk (s.registered (.launched i)) with
        response := false
        call := none
        stage := .user }) :
    (s.commit (.launched i) (.ok after)).ledger =
      (s.ledger.set (.launched i)
        { s.ledger.desks (.launched i) with response := false, call := none, stage := .user }).note
          (.returned (.launched i) m) := by
  have ended : after.call = none := congrArg Desk.call desk
  have stored := s.ledger_setService i after
  rw [desk] at stored
  simp only [commit, call, ended]
  exact congrArg (fun l => l.note (.returned (.launched i) m)) stored

theorem ledger_launchService (s : State) (type : ServiceType) :
    (s.launchService type).ledger =
      s.ledger.set (.launched (s.serviceIndexAlloc + 1))
        { launched := true, type, registered := true } := by
  have desks : (s.launchService type).desk =
      Function.update s.desk (.launched (s.serviceIndexAlloc + 1))
        { launched := true, type, registered := true } := by
    funext y
    rw [launchService_eq]
    by_cases same : y = .launched (s.serviceIndexAlloc + 1)
    · subst same
      cases type <;> simp [desk, Service.launched, Service.desk, Point.stage, kServiceStart, kResponse]
    · cases y with
      | idle t => simp [desk]
      | launched j => simp [desk, same]
  rw [ledger, desks, launchService_eq]
  rfl

theorem ledger_getReadyService (s : State) (t : Nat) :
    (s.getReadyService t).2.ledger = s.ledger := by
  simp only [getReadyService]
  split
  · rfl
  · exact s.ledger_setService_idle t _

/-- A switch to another coroutine is not seen by the ledger. -/
theorem ledger_switchTo {s : State} {t : Nat} {x : ServiceId} {resume : Point}
    {stay : State → State} (stage : resume.stage = (s.services x).point.stage)
    (stays : ∀ s : State, (stay s).ledger = s.ledger) :
    (s.switchTo t x resume stay).ledger = s.ledger := by
  have popped := s.ledger_getReadyService t
  simp only [switchTo]
  split
  · exact (stays _).trans popped
  · refine Eq.trans ?_ popped
    refine ledger_setService_same _ x _ fun registered => ?_
    have point : ((s.getReadyService t).2.services x).point = (s.services x).point := by
      simp only [getReadyService]
      split
      · rfl
      · by_cases same : x = .idle t
        · simp [setService, same]
        · simp [setService, same]
    simp only [Service.desk, Service.switchOut, point, stage]
    rfl

end State

/-- The masks of user waits do not contain `kResponse`. -/
theorem Return.Requests.other {caller : Return} {events : ServiceEvent}
    (requests : caller.Requests events) (notCall : caller ≠ .call) : events &&& kResponse = 0 := by
  cases caller with
  | user => rcases requests with rfl | rfl | rfl <;> decide
  | loop =>
      have equal : events = loopMask := requests
      subst equal
      decide
  | call => exact absurd rfl notCall

namespace Ledger

/-- A `Wait_Locked` that does not belong to a call. -/
theorem Step.of_waitLocked {policy : Policy} {s : State} {x : ServiceId} {service : Service}
    {events : ServiceEvent} {caller : Return} (notCall : caller ≠ .call)
    (other : events &&& kResponse = 0) (stage : (s.services x).point.stage = caller.stage)
    (same : ∀ registered, service.desk registered = (s.services x).desk registered) :
    Step policy s.ledger (s.commit x (service.waitLocked events caller)).ledger := by
  apply Step.of_eq
  apply State.ledger_commit_same
  intro after waited registered
  have here : service.point.stage = caller.stage := (congrArg Desk.stage (same false)).trans stage
  exact (Service.desk_waitLocked notCall other here waited registered).trans (same registered)

/-- The wait of a call. -/
theorem Step.of_callWait {policy : Policy} {s : State} {i : Nat} {outcome : Except Check Service}
    (sound : (s.ledger.desks (.launched i)).Sound)
    (launched : (s.services (.launched i)).status ≠ .created)
    (stage : (s.services (.launched i)).point.stage = .calling)
    (waited : ∀ after, outcome = .ok after →
      ∀ registered, after.desk registered = (s.services (.launched i)).desk registered ∨
        ((s.services (.launched i)).desk registered).response = true ∧
          after.desk registered =
            { (s.services (.launched i)).desk registered with
              response := false
              call := none
              stage := .user }) :
    Step policy s.ledger (s.commit (.launched i) outcome).ledger := by
  cases outcome with
  | error check => exact .quiet
  | ok after =>
      obtain ⟨m, call⟩ := Option.isSome_iff_exists.mp (sound.calling.mp stage)
      have call : (s.services (.launched i)).call = some m := call
      rcases waited after rfl (s.registered (.launched i)) with same | ⟨response, taken⟩
      · apply Step.of_eq
        have kept : after.call = (s.services (.launched i)).call := congrArg Desk.call same
        have stored := s.ledger_setService i after
        rw [same] at stored
        simp only [State.commit, kept, call]
        exact stored.trans (s.ledger.set_self (.launched i))
      · rw [State.ledger_commit_return call taken]
        exact .returnCall (.launched i) m (decide_eq_true launched) stage call response

theorem Step.of_sendMessage {policy : Policy} {s : State} {m : Message} {i : Nat}
    (destination : m.destination = .launched i)
    (launched : (s.services (.launched i)).status ≠ .created) (fresh : m.id = s.nextMessage)
    (plain : m.IsPlain)
    (directed : policy.misdirected = true ∨ (s.services (.launched i)).stopping = true ∨
      (s.services (.launched i)).type ≠ .userThread) :
    Step policy s.ledger (s.sendMessage m).1.ledger := by
  cases sent : (s.sendMessage m).2 with
  | false =>
      rw [State.ledger_sendMessage_rejected sent]
      exact .reject m fresh
  | true =>
      obtain ⟨accepted, running⟩ := State.ledger_sendMessage_accepted destination sent
      rw [accepted]
      have desk : s.ledger.desks m.destination =
          (s.services (.launched i)).desk (s.registered (.launched i)) := by rw [destination]; rfl
      rw [destination] at running
      refine .post m plain ⟨fresh, ?_, ?_⟩ ?_
      · rw [desk]
        exact decide_eq_true launched
      · rw [desk]
        exact running
      · rw [desk]
        rcases directed with allowed | stopping | type
        · exact Or.inl allowed
        · simp [running] at stopping
        · exact Or.inr type

theorem Step.of_callMethod {policy : Policy} {s : State} {i j : Nat} (withClosure : Bool)
    (launched : (s.services (.launched j)).status ≠ .created)
    (caller : (s.services (.launched i)).status ≠ .created)
    (user : (s.services (.launched i)).point = .user)
    (directed : policy.misdirected = true ∨ (s.services (.launched j)).stopping = true ∨
      (s.services (.launched j)).type = .methodCall) :
    Step policy s.ledger (s.callMethod (.launched i) (.launched j) withClosure).ledger := by
  have call : (s.callMessage (.launched i) (.launched j) withClosure).IsCallOf (.launched i) := by
    cases withClosure with
    | false => exact ⟨rfl, Or.inl ⟨rfl, rfl⟩⟩
    | true => exact ⟨rfl, Or.inr ⟨rfl, rfl⟩⟩
  simp only [State.callMethod]
  split
  · rename_i middle accepted
    obtain ⟨ledger, running⟩ := State.ledger_sendMessage_accepted
      (m := s.callMessage (.launched i) (.launched j) withClosure) rfl (by rw [accepted])
    rw [accepted] at ledger
    have running : (s.services (.launched j)).stopping = false := running
    have ledger : middle.ledger =
        s.ledger.accept (s.callMessage (.launched i) (.launched j) withClosure) := ledger
    have desk : Service.desk
        { middle.services (.launched i) with
          point := .calling
          call := some (s.callMessage (.launched i) (.launched j) withClosure) }
        (middle.registered (.launched i)) =
        { middle.ledger.desks (.launched i) with
          stage := .calling
          call := some (s.callMessage (.launched i) (.launched j) withClosure) } := rfl
    rw [State.ledger_setService, desk, ledger]
    refine .call _ _ call ⟨rfl, decide_eq_true launched, running⟩ (decide_eq_true caller)
      (congrArg Point.stage user) ?_
    rcases directed with allowed | stopping | type
    · exact Or.inl allowed
    · simp [running] at stopping
    · exact Or.inr type
  · rename_i middle rejected
    have ledger := State.ledger_sendMessage_rejected
      (m := s.callMessage (.launched i) (.launched j) withClosure) (by rw [rejected])
    rw [rejected] at ledger
    have ledger : middle.ledger = _ := ledger
    rw [ledger]
    exact .reject _ rfl

end Ledger

theorem Service.desk_onResumePrev (service : Service) (registered : Bool) :
    service.onResumePrev.1.desk registered = service.desk registered := by
  simp only [onResumePrev]
  split
  · rename_i blocked
    have status : service.status = .blocked := blocked.2
    simp only [desk, status]
    rfl
  · rfl

theorem State.ledger_onResumePrev {s after : State} {t : Nat}
    (resumed : s.onResumePrev t = some after) : after.ledger = s.ledger := by
  simp only [State.onResumePrev] at resumed
  split at resumed
  · cases resumed
  · split at resumed
    · cases resumed
    · cases resumed
      rfl
    · split at resumed
      · cases resumed
        rfl
      · split at resumed
        · cases resumed
          exact ledger_setService_same (s.setThread t { s.threads t with phase := .resumeCur }) _ _
            fun _ => rfl
        · rename_i i _ _
          cases resumed
          have stored := ledger_setService_same
            (s.setThread t { s.threads t with phase := .resumeCur }) (.launched i) _
            (s.services (.launched i)).desk_onResumePrev
          split
          · exact (ledger_putReadyService _ _).trans stored
          · exact stored

namespace Ledger

/-- Where a service continues that has been resumed. -/
theorem Step.of_enter {policy : Policy} {s : State} {i : Nat} {service : Service}
    (launched : (s.services (.launched i)).status ≠ .created)
    (desk : ∀ registered, service.desk registered =
      { (s.services (.launched i)).desk registered with
        stage := ((s.services (.launched i)).enter (.launched i)).stage }) :
    Step policy s.ledger (s.commit (.launched i) (.ok service)).ledger := by
  have committed : (s.commit (.launched i) (.ok service)).ledger =
      s.ledger.set (.launched i)
        { s.ledger.desks (.launched i) with
          stage := ((s.services (.launched i)).enter (.launched i)).stage } := by
    have call : service.call = (s.services (.launched i)).call := congrArg Desk.call (desk false)
    have stored := s.ledger_setService i service
    rw [desk] at stored
    simp only [State.commit, call]
    cases (s.services (.launched i)).call <;> exact stored
  rw [committed]
  by_cases entry : (s.services (.launched i)).point = .entry
  · have stage : ((s.services (.launched i)).enter (.launched i)).stage =
        if (s.ledger.desks (.launched i)).type = .userThread then .user else .loop := by
      cases type : (s.services (.launched i)).type <;>
        simp [Service.desk, State.ledger, State.desk, Service.enter, entry, type, Point.stage]
    rw [stage]
    exact .enter (.launched i) (decide_eq_true launched) (congrArg Point.stage entry)
  · have point : (s.services (.launched i)).enter (.launched i) =
        (s.services (.launched i)).point := by
      cases at_ : (s.services (.launched i)).point <;> simp_all [Service.enter]
    rw [point]
    exact .of_eq (s.ledger.set_self (.launched i))

/-- `OnResume` on the current service enters its main function at the first time. -/
theorem Step.of_onResumeCur {policy : Policy} {s after : State} {t : Nat}
    {place : ServiceId → Place} (coherent : Coherent true s place)
    (resumed : s.onResumeCur t = some after) : Step policy s.ledger after.ledger := by
  simp only [State.onResumeCur] at resumed
  split at resumed
  · rename_i x current phase
    cases resumed
    have settled := coherent.settled x
    rw [(coherent.resuming t x).mp ⟨current, by simp [phase]⟩] at settled
    have threads : ∀ (s : State) thread, (s.setThread t thread).ledger = s.ledger := fun _ _ => rfl
    rw [threads]
    cases outcome : (s.services x).onResumeCur x t s.curTime with
    | error check => exact .quiet
    | ok service =>
        simp only [Service.onResumeCur] at outcome
        split at outcome
        · cases outcome
        · split at outcome
          · cases outcome
          · rename_i ready
            have ready : (s.services x).status = .ready := not_not.mp ready
            cases outcome
            cases x with
            | idle u =>
                apply Step.of_eq
                simp only [State.commit]
                cases (s.services (.idle u)).call <;> exact s.ledger_setService_idle u _
            | launched i =>
                refine .of_enter (by simp [ready]) fun registered => ?_
                simp [Service.desk, ready]
  · cases resumed

theorem Step.of_waitResumed {policy : Policy} {s after : State} {t : Nat} {x : ServiceId}
    {place : ServiceId → Place} (coherent : Coherent true s place)
    (sound : ∀ x, (s.ledger.desks x).Sound)
    (current : (s.threads t).currentService = some x) (phase : (s.threads t).phase = .run)
    (resumed : s.waitResumed x (s.services x) = some after) :
    Step policy s.ledger after.ledger := by
  simp only [State.waitResumed] at resumed
  split at resumed
  · rename_i events caller point
    cases resumed
    obtain ⟨i, rfl, launched⟩ := coherent.current_launched current phase (by simp [point])
    have settled : (s.services (.launched i)).Settled true (place (.launched i)) :=
      coherent.settled (.launched i)
    rw [(coherent.running t _).mp ⟨current, phase⟩] at settled
    obtain ⟨-, -, atPoint⟩ := settled.unwaited_at (by simp [point])
    rw [Service.StatusAtPoint, point] at atPoint
    obtain ⟨running, hit, requests⟩ := atPoint
    have stage := congrArg Point.stage point
    rw [Service.waitResumed, if_pos (by rw [BitVec.and_comm]; exact hit)]
    by_cases call : caller = .call
    · subst call
      obtain rfl : events = kResponse := requests
      exact .of_callWait (sound _) launched stage fun after outcome registered =>
        Or.inr (Service.desk_takeResponse outcome registered)
    · apply Step.of_eq
      apply State.ledger_commit_same
      intro after outcome registered
      exact Service.desk_takeEvents call (requests.other call) stage outcome registered
  · cases resumed

/-- A service that retires. -/
theorem Service.desk_dead {service : Service} (launched : service.status ≠ .created)
    (point : Point) (registered : Bool) :
    Service.desk { service with status := .dead, point } registered =
      { service.desk registered with dead := true, stage := point.stage } := by
  simp [Service.desk, launched]

theorem Step.of_serviceLoop {policy : Policy} {s after : State} {t : Nat} {x : ServiceId}
    {place : ServiceId → Place} (coherent : Coherent true s place)
    (current : (s.threads t).currentService = some x) (phase : (s.threads t).phase = .run)
    (looped : s.serviceLoop x (s.services x) = some after) : Step policy s.ledger after.ledger := by
  simp only [State.serviceLoop] at looped
  split at looped
  · cases looped
  · rename_i loop
    have loop : (s.services x).point = .loop := not_not.mp loop
    obtain ⟨i, rfl, launched⟩ := coherent.current_launched current phase (by simp [loop])
    have stage := congrArg Point.stage loop
    have launched := decide_eq_true launched
    split at looped
    · rename_i m rest queue
      cases looped
      have stored := s.ledger_setService i
        { s.services (.launched i) with msgQueue := rest, msg := some m, point := .user }
      have taken : Step policy s.ledger _ := .take (.launched i) m rest launched stage queue
      split
      · rename_i closure
        rw [if_pos closure] at taken
        refine Eq.subst (motive := Step policy s.ledger) ?_ taken
        exact congrArg (fun l : Ledger =>
          { l with closures := l.closures ++ [m], log := l.log ++ [Event.handled m] }) stored.symm
      · rename_i closure
        rw [if_neg closure] at taken
        refine Eq.subst (motive := Step policy s.ledger) ?_ taken
        exact congrArg (fun l : Ledger => l.note (.handled m)) stored.symm
    · rename_i queue
      split at looped
      · rename_i stopping
        cases looped
        rw [State.ledger_removeService, State.ledger_setService, set_set, set_desks_self,
          Service.desk_dead (of_decide_eq_true launched)]
        exact .drain (.launched i) launched stage queue stopping
      · split at looped
        · cases looped
          exact .of_waitLocked (by simp) (by decide) stage fun _ => rfl
        · cases looped
          exact .of_eq (s.ledger_setService_same _ _ fun _ => rfl)

theorem Step.of_userReturn {policy : Policy} {s after : State} {t : Nat} {x : ServiceId}
    {place : ServiceId → Place} (coherent : Coherent true s place)
    (current : (s.threads t).currentService = some x) (phase : (s.threads t).phase = .run)
    (user : (s.services x).point = .user)
    (returned : s.userReturn x (s.services x) = some after) :
    Step policy s.ledger after.ledger := by
  obtain ⟨i, rfl, launched⟩ := coherent.current_launched current phase (by simp [user])
  have stage := congrArg Point.stage user
  have launched := decide_eq_true launched
  simp only [State.userReturn] at returned
  split at returned
  · rename_i type
    cases returned
    rw [State.ledger_setService]
    exact .leaveMain (.launched i) launched stage type
  · rename_i type
    cases returned
    have type : (s.ledger.desks (.launched i)).type = .messageDriven := type
    rw [State.ledger_setService]
    exact .leaveHandler (.launched i) launched stage (by simp [type]) (by simp [type])
  · rename_i m type msg
    have type : (s.ledger.desks (.launched i)).type = .methodCall := type
    have msg : (s.ledger.desks (.launched i)).msg = some m := msg
    split at returned
    · rename_i call
      cases returned
      have stored := s.ledger_setService i { s.services (.launched i) with point := .answering }
      have executed : Step policy s.ledger _ :=
        .execute (.launched i) m launched stage type msg call
      refine Eq.subst (motive := Step policy s.ledger) ?_ executed
      exact congrArg (fun l : Ledger => l.note (.executed (.launched i) m)) stored.symm
    · rename_i other
      cases returned
      rw [State.ledger_setService]
      refine .leaveHandler (.launched i) launched stage (by simp [type]) fun _ m' handled => ?_
      rw [msg] at handled
      cases handled
      exact other
  · cases returned

theorem Step.of_done {policy : Policy} {s after : State} {t : Nat} {x : ServiceId}
    {place : ServiceId → Place} (coherent : Coherent true s place)
    (current : (s.threads t).currentService = some x) (phase : (s.threads t).phase = .run)
    (answered : s.done x (s.services x) = some after) : Step policy s.ledger after.ledger := by
  simp only [State.done] at answered
  split at answered
  · rename_i m point msg
    obtain ⟨i, rfl, launched⟩ := coherent.current_launched current phase (by simp [point])
    have stage := congrArg Point.stage point
    have stored := s.ledger_setService i
      { s.services (.launched i) with msg := none, point := .loop }
    have back := congrArg (fun l : Ledger => l.note (.done m)) stored
    have step : Step policy s.ledger (s.ledger.answer (.launched i) m) :=
      .answer (.launched i) m (decide_eq_true launched) stage msg
    simp only [Ledger.answer] at step
    split at answered
    · rename_i src closure
      rw [State.ledger_respond answered]
      rw [closure] at step
      refine Eq.subst (motive := Step policy s.ledger) ?_ step
      exact congrArg (fun l : Ledger => l.respond src) back.symm
    · rename_i plain
      cases answered
      refine Eq.subst (motive := Step policy s.ledger) ?_ step
      refine Eq.trans ?_ back.symm
      split
      · rename_i src closure
        exact absurd closure (plain src)
      · rfl
  · cases answered

theorem Step.of_retire {policy : Policy} {s after : State} {t : Nat} {x : ServiceId}
    {place : ServiceId → Place} (coherent : Coherent true s place)
    (current : (s.threads t).currentService = some x) (phase : (s.threads t).phase = .run)
    (retired : s.retire x (s.services x) = some after) : Step policy s.ledger after.ledger := by
  simp only [State.retire] at retired
  split at retired
  · rename_i point
    cases retired
    obtain ⟨i, rfl, launched⟩ := coherent.current_launched current phase (by simp [point])
    rw [State.ledger_setService]
    exact .beginRetire (.launched i) (decide_eq_true launched) (congrArg Point.stage point)
  · rename_i point
    cases retired
    obtain ⟨i, rfl, launched⟩ := coherent.current_launched current phase (by simp [point])
    rw [State.ledger_setService, Service.desk_dead launched]
    exact .die (.launched i) (decide_eq_true launched) (congrArg Point.stage point)
  · rename_i point
    cases retired
    obtain ⟨i, rfl, launched⟩ := coherent.current_launched current phase (by simp [point])
    rw [State.ledger_removeService, State.ledger_setService, set_set, set_desks_self]
    exact .remove (.launched i) (decide_eq_true launched) (congrArg Point.stage point)
  · cases retired

end Ledger

/-- Every step of the scheduler that a policy permits is a step of the ledger. -/
theorem ledger_step {policy : Policy} {s after : State} {label : Label} (placed : Placed true s)
    (sound : ∀ x, (s.ledger.desks x).Sound) (permitted : policy.permits s label = true)
    (stepped : step s label = some after) : Ledger.Step policy s.ledger after.ledger := by
  obtain ⟨place, coherent⟩ := placed
  simp only [step] at stepped
  split at stepped
  · cases stepped
  · cases label with
    | threadMain t =>
        simp only [State.threadMain] at stepped
        split at stepped
        · cases stepped
          exact .of_eq (s.ledger_setService_idle t { status := .ready })
        · cases stepped
    | tick =>
        cases stepped
        exact .quiet
    | launchService type =>
        cases stepped
        rw [State.ledger_launchService]
        refine .launch _ type ?_
        have absent := coherent.unlaunched (s.serviceIndexAlloc + 1) (Nat.lt_succ_self _)
        have settled := coherent.settled (.launched (s.serviceIndexAlloc + 1))
        rw [absent] at settled
        exact decide_eq_false (not_not.mpr settled)
    | sendMessage destination type closure =>
        obtain ⟨i, rfl, launched, -, rfl⟩ := State.onService_eq_some.mp stepped
        refine .of_sendMessage rfl launched rfl ?_ (by simpa [Policy.permits, or_assoc] using permitted)
        cases closure with
        | false => exact ⟨by simp [State.userMessage], rfl⟩
        | true => exact ⟨by simp [State.userMessage], rfl⟩
    | sendNotFound destination type closure =>
        rw [State.ledger_sendNotFound stepped]
        exact .reject _ rfl
    | stopService x =>
        obtain ⟨i, rfl, launched, -, rfl⟩ := State.onService_eq_some.mp stepped
        simp only [State.stopService]
        split
        · exact .quiet
        · rw [State.ledger_wakeup_other _ i (by decide), State.ledger_setService]
          exact .stop (.launched i) (decide_eq_true launched)
    | interruptService x =>
        obtain ⟨i, rfl, launched, -, rfl⟩ := State.onService_eq_some.mp stepped
        simp only [State.interruptService]
        split
        · exact .of_eq (s.ledger_wakeup_other i (by decide))
        · exact .quiet
    | wakeUp x e =>
        obtain ⟨i, rfl, launched, -, rfl⟩ := State.onService_eq_some.mp stepped
        by_cases other : e &&& kResponse = 0
        · exact .of_eq (s.ledger_wakeup_other i other)
        · rw [s.ledger_wakeup_response i other]
          have allowed : policy.stray = true := by
            simpa [Policy.permits, show ¬ e &&& kResponse = 0#32 from other] using permitted
          exact .stray (.launched i) allowed (decide_eq_true launched)
    | onIoReady x ioEvents =>
        obtain ⟨i, rfl, launched, -, rfl⟩ := State.onService_eq_some.mp stepped
        simp only [State.onIoReady]
        split
        · refine .of_eq ((State.ledger_wakeup_other _ i (by decide)).trans ?_)
          exact s.ledger_setService_same _ _ fun _ => rfl
        · exact .quiet
    | waitSignal t =>
        obtain ⟨x, current, phase, user, committed⟩ := State.onUser_eq_some.mp stepped
        cases committed
        exact .of_waitLocked (by simp) (by decide) (congrArg Point.stage user) fun _ => rfl
    | sleepService t milliseconds =>
        obtain ⟨x, current, phase, user, committed⟩ := State.onUser_eq_some.mp stepped
        cases committed
        simp only [State.sleepService]
        split
        · refine .of_eq (s.ledger_setService_same _ _ fun _ => ?_)
          simp only [Service.desk, user]
          rfl
        · exact .of_waitLocked (by simp) (by decide) (congrArg Point.stage user) fun _ => rfl
    | waitIo t fd added =>
        obtain ⟨x, current, phase, user, committed⟩ := State.onUser_eq_some.mp stepped
        cases committed
        simp only [State.waitIo]
        split
        · exact .of_waitLocked (by simp) (by decide) (congrArg Point.stage user) fun _ => rfl
        · exact .of_eq (s.ledger_setService_same _ _ fun _ => rfl)
    | callMethod t destination withClosure =>
        obtain ⟨x, current, phase, user, called⟩ := State.onUser_eq_some.mp stepped
        obtain ⟨j, rfl, launched, -, rfl⟩ := State.onService_eq_some.mp called
        obtain ⟨i, rfl, caller⟩ := coherent.current_launched current phase (by simp [user])
        exact .of_callMethod withClosure launched caller user
          (by simpa [Policy.permits, or_assoc] using permitted)
    | callNotFound t destination withClosure =>
        obtain ⟨x, -, -, -, called⟩ := State.onUser_eq_some.mp stepped
        rw [State.ledger_sendNotFound called]
        exact .reject _ rfl
    | waitResponse t =>
        obtain ⟨x, current, phase, waited⟩ := State.onCurrent_eq_some.mp stepped
        simp only [State.waitResponse] at waited
        split at waited
        · rename_i calling
          cases waited
          obtain ⟨i, rfl, launched⟩ := coherent.current_launched current phase (by simp [calling])
          have stage := congrArg Point.stage calling
          exact .of_callWait (sound _) launched stage fun after outcome =>
            Service.desk_waitLocked_call stage outcome
        · cases waited
    | yield t =>
        obtain ⟨x, current, phase, user, switched⟩ := State.onUser_eq_some.mp stepped
        cases switched
        exact .of_eq (State.ledger_switchTo (congrArg Point.stage user).symm fun _ => rfl)
    | schedule t =>
        obtain ⟨x, current, phase, scheduled⟩ := State.onCurrent_eq_some.mp stepped
        simp only [State.schedule] at scheduled
        split at scheduled
        · rename_i events caller point
          cases scheduled
          exact .of_eq (State.ledger_switchTo (congrArg Point.stage point).symm fun _ => rfl)
        · rename_i point
          cases scheduled
          exact .of_eq (State.ledger_switchTo (congrArg Point.stage point).symm fun _ => rfl)
        · rename_i point
          cases scheduled
          exact .of_eq (State.ledger_switchTo (congrArg Point.stage point).symm fun _ => rfl)
        · cases scheduled
    | onResumePrev t => exact .of_eq (State.ledger_onResumePrev stepped)
    | onResumeCur t => exact .of_onResumeCur coherent stepped
    | waitResumed t =>
        obtain ⟨x, current, phase, resumed⟩ := State.onCurrent_eq_some.mp stepped
        exact .of_waitResumed coherent sound current phase resumed
    | serviceLoop t =>
        obtain ⟨x, current, phase, looped⟩ := State.onCurrent_eq_some.mp stepped
        exact .of_serviceLoop coherent current phase looped
    | userReturn t =>
        obtain ⟨x, current, phase, user, returned⟩ := State.onUser_eq_some.mp stepped
        exact .of_userReturn coherent current phase user returned
    | handleNotMethodCall t =>
        obtain ⟨x, -, -, -, handled⟩ := State.onUser_eq_some.mp stepped
        simp only [State.handleNotMethodCall] at handled
        split at handled
        · split at handled
          · cases handled
          · cases handled
            exact .quiet
        · cases handled
    | done t =>
        obtain ⟨x, current, phase, answered⟩ := State.onCurrent_eq_some.mp stepped
        exact .of_done coherent current phase answered
    | runClosure m =>
        simp only [State.runClosure] at stepped
        split at stepped
        · cases stepped
        · rename_i src closure
          split at stepped
          · rename_i held
            rw [State.ledger_respond stepped]
            exact .runClosure src m closure held
          · cases stepped
    | retire t =>
        obtain ⟨x, current, phase, retired⟩ := State.onCurrent_eq_some.mp stepped
        exact .of_retire coherent current phase retired
    | threadExit t =>
        obtain ⟨x, current, phase, exited⟩ := State.onCurrent_eq_some.mp stepped
        simp only [State.threadExit] at exited
        split at exited
        · rename_i idle
          cases exited
          have settled := coherent.settled x
          rw [(coherent.running t x).mp ⟨current, phase⟩] at settled
          cases x with
          | idle u =>
              exact .of_eq (s.ledger_setService_idle u
                { s.services (.idle u) with stopping := true, status := .dead })
          | launched i =>
              have settled : (s.services (.launched i)).Settled true (.running t) := settled
              obtain ⟨-, -, atPoint⟩ := settled.unwaited_at (by simp [idle.1])
              simp [Service.StatusAtPoint, idle.1] at atPoint
        · cases exited

/-! ## Executions -/

/-- What the refinement needs to know about a state. -/
structure State.Tracked (s : State) : Prop where
  placed : Placed true s
  sound : ∀ x, (s.ledger.desks x).Sound

theorem tracked_initial : initial.Tracked where
  placed := ⟨_, Coherent.start true⟩
  sound := by
    intro x
    have desk : initial.ledger.desks x = {} := by
      cases x with
      | idle t => rfl
      | launched i => simp [initial, State.ledger, State.desk, Service.desk, Point.stage]
    rw [desk]
    constructor <;> simp

/-- An invariant of the ledger is one of the scheduler. -/
theorem State.Tracked.run {policy : Policy} {s after : State} {labels : List Label}
    {property : Ledger → Prop} (tracked : s.Tracked)
    (preserved : ∀ before after, (∀ x, (before.desks x).Sound) → property before →
      Ledger.Step policy before after → property after)
    (start : property s.ledger)
    (execution : Transition.run (Transition.restrict Mcast.step policy.permits) s labels =
      some after) : after.Tracked ∧ property after.ledger := by
  have invariant : ∀ before label after, before.Tracked ∧ property before.ledger →
      policy.permits before label = true → Mcast.step before label = some after →
        after.Tracked ∧ property after.ledger := by
    rintro before label after ⟨tracked, holds⟩ permitted stepped
    have moved := ledger_step tracked.placed tracked.sound permitted stepped
    exact ⟨⟨tracked.placed.step (Or.inl rfl) stepped, moved.sound tracked.sound⟩,
      preserved _ _ tracked.sound holds moved⟩
  exact Transition.run_restrict_preserves invariant ⟨tracked, start⟩ execution

/-- The policy that permits everything. -/
def Policy.any : Policy := ⟨true, true⟩

theorem restrict_any : Transition.restrict step Policy.any.permits = step :=
  Transition.restrict_eq_self fun s label => by cases label <;> rfl

end Mcast
