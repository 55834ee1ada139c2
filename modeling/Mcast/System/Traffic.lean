import Mcast.System.Changes

/-!
# The run queue and the thread slots

What a step does to `run_queue_` and to the `current_service` slots: services join the queue at its
end, and `SwitchTo` takes the one at its head.  So the queue is served in order, and a service that
is ready is resumed after as many services as stand before it.
-/

namespace Mcast

open ServiceEvent

/-- The label calls `SwitchTo`. -/
def Label.switches : Label → Bool
  | .schedule _ | .yield _ => true
  | _ => false

namespace State

/-- The slots stay as they are, and services join the queue at its end. -/
structure Feeds (s after : State) : Prop where
  threads : after.threads = s.threads
  queue : ∃ joined, after.runQueue = s.runQueue ++ joined

theorem commit_threads (s : State) (x : ServiceId) (outcome : Except Check Service) :
    (s.commit x outcome).threads = s.threads := by
  cases outcome with
  | error check => rfl
  | ok service =>
      simp only [State.commit]
      split <;> rfl

theorem commit_runQueue (s : State) (x : ServiceId) (outcome : Except Check Service) :
    (s.commit x outcome).runQueue = s.runQueue := by
  cases outcome with
  | error check => rfl
  | ok service =>
      simp only [State.commit]
      split <;> rfl

namespace Feeds

variable {s middle after : State}

theorem of_eq (threads : after.threads = s.threads) (queue : after.runQueue = s.runQueue) :
    s.Feeds after :=
  ⟨threads, [], by rw [queue, List.append_nil]⟩

theorem refl (s : State) : s.Feeds s := of_eq rfl rfl

theorem setService (earlier : s.Feeds middle) (x : ServiceId) (service : Service) :
    s.Feeds (middle.setService x service) :=
  ⟨earlier.threads, earlier.queue⟩

theorem addLog (earlier : s.Feeds middle) (event : Event) : s.Feeds (middle.addLog event) :=
  ⟨earlier.threads, earlier.queue⟩

theorem putReadyService (earlier : s.Feeds middle) (x : ServiceId) :
    s.Feeds (middle.putReadyService x) := by
  cases x with
  | idle t => exact earlier
  | launched i =>
      obtain ⟨joined, queue⟩ := earlier.queue
      refine ⟨earlier.threads, joined ++ [.launched i], ?_⟩
      simp [State.putReadyService, queue]

theorem wakeup (earlier : s.Feeds middle) (x : ServiceId) (e : ServiceEvent) :
    s.Feeds (middle.wakeup x e) := by
  simp only [State.wakeup]
  split
  · exact (earlier.setService x _).putReadyService x
  · exact earlier.setService x _

theorem sendMessage (s : State) (m : Message) : s.Feeds (s.sendMessage m).1 := by
  simp only [State.sendMessage]
  split
  · exact of_eq rfl rfl
  · split
    · refine addLog (wakeup ?_ _ _) _
      exact of_eq rfl rfl
    · exact of_eq rfl rfl

theorem commit (s : State) (x : ServiceId) (outcome : Except Check Service) :
    s.Feeds (s.commit x outcome) :=
  of_eq (commit_threads s x outcome) (commit_runQueue s x outcome)

theorem respond {src : ServiceId} (earlier : s.Feeds middle)
    (responded : middle.respond src = some after) : s.Feeds after := by
  unfold State.respond at responded
  split at responded
  · obtain ⟨i, rfl, -, -, rfl⟩ := onService_eq_some.mp responded
    exact earlier.wakeup ..
  · cases responded
    exact earlier

theorem sendNotFound {m : Message} (sent : s.sendNotFound m = some after) : s.Feeds after := by
  unfold State.sendNotFound at sent
  split at sent
  · cases sent
  · rw [Option.ite_none_left_eq_some] at sent
    cases sent.2
    exact of_eq rfl rfl

theorem launchService (s : State) (type : ServiceType) : s.Feeds (s.launchService type) := by
  rw [launchService_eq]
  exact ⟨rfl, _, rfl⟩

theorem serviceLoop {x : ServiceId} {service : Service}
    (looped : s.serviceLoop x service = some after) : s.Feeds after := by
  unfold State.serviceLoop at looped
  split at looped
  · cases looped
  · split at looped
    · cases looped
      split
      · exact of_eq rfl rfl
      · exact of_eq rfl rfl
    · split at looped
      · cases looped
        exact of_eq rfl rfl
      · split at looped
        · cases looped
          exact commit ..
        · cases looped
          exact of_eq rfl rfl

theorem userReturn {x : ServiceId} {service : Service}
    (returned : s.userReturn x service = some after) : s.Feeds after := by
  unfold State.userReturn at returned
  split at returned
  · cases returned
    exact of_eq rfl rfl
  · cases returned
    exact of_eq rfl rfl
  · split at returned
    · cases returned
      exact of_eq rfl rfl
    · cases returned
      exact of_eq rfl rfl
  · cases returned

theorem done {x : ServiceId} {service : Service} (done : s.done x service = some after) :
    s.Feeds after := by
  unfold State.done at done
  split at done
  · dsimp only at done
    split at done
    · exact (((refl s).setService _ _).addLog _).respond done
    · cases done
      exact of_eq rfl rfl
  · cases done

theorem retire {x : ServiceId} {service : Service} (retired : s.retire x service = some after) :
    s.Feeds after := by
  unfold State.retire at retired
  split at retired
  · cases retired
    exact of_eq rfl rfl
  · cases retired
    exact of_eq rfl rfl
  · cases retired
    exact of_eq rfl rfl
  · cases retired

end Feeds

/-- The sections of `OnResume` write the slot of their thread, but not its current service. -/
theorem onResumePrev_feeds {s after : State} {t : Nat} (resumed : s.onResumePrev t = some after) :
    s.Feeds after ∨
      (s.setThread t { s.threads t with phase := .resumeCur }).Feeds after := by
  simp only [State.onResumePrev] at resumed
  split at resumed
  · cases resumed
  · split at resumed
    · cases resumed
    · cases resumed
      exact Or.inr (.refl _)
    · split at resumed
      · cases resumed
        exact Or.inl (.of_eq rfl rfl)
      · split at resumed
        · cases resumed
          exact Or.inr ((Feeds.refl _).setService _ _)
        · cases resumed
          right
          split
          · exact ((Feeds.refl _).setService _ _).putReadyService _
          · exact (Feeds.refl _).setService _ _

theorem onResumeCur_feeds {s after : State} {t : Nat} (resumed : s.onResumeCur t = some after) :
    (s.threads t).phase = .resumeCur ∧
      after.threads = Function.update s.threads t
        { s.threads t with prevService := none, phase := .run } ∧
      after.runQueue = s.runQueue := by
  simp only [State.onResumeCur] at resumed
  split at resumed
  · next x current phase =>
      cases resumed
      refine ⟨phase, ?_, ?_⟩
      · simp [State.setThread, commit_threads]
      · simp [State.setThread, commit_runQueue]
  · cases resumed

/-- What a step does to the run queue and to the thread slots. -/
inductive Traffic (s : State) : Label → State → Prop
  | feeds {label : Label} {after : State} (calm : label.switches = false ∨ s.runQueue = [])
      (feeds : s.Feeds after) : Traffic s label after
  /-- `OnResume` writes the slot of its thread, but not the current service. -/
  | resume {label : Label} {after : State} {t : Nat} {thread : Thread}
      (calls : label = .onResumePrev t ∨
        label = .onResumeCur t ∧ (s.threads t).phase = .resumeCur)
      (threads : after.threads = Function.update s.threads t thread)
      (current : thread.currentService = (s.threads t).currentService)
      (queue : ∃ joined, after.runQueue = s.runQueue ++ joined) : Traffic s label after
  /-- `SwitchTo` goes on with the head of the queue, or with the idle service. -/
  | switch {label : Label} {after : State} {t : Nat} {x next : ServiceId}
      (calls : label = .schedule t ∨ label = .yield t) (runs : s.Runs t x) (other : x ≠ next)
      (taken : s.runQueue = next :: after.runQueue ∨
        s.runQueue = [] ∧ next = .idle t ∧ after.runQueue = [])
      (threads : after.threads = Function.update s.threads t
        { currentService := some next, prevService := some x, phase := .resumePrev }) :
      Traffic s label after
  /-- `SwitchTo` finds the service itself at the head of the queue. -/
  | stay {label : Label} {after : State} {t : Nat} {x : ServiceId}
      (calls : label = .schedule t ∨ label = .yield t) (runs : s.Runs t x)
      (taken : s.runQueue = x :: after.runQueue) (threads : after.threads = s.threads) :
      Traffic s label after
  | enter {after : State} {t : Nat} (outside : (s.threads t).currentService = none)
      (queue : after.runQueue = s.runQueue)
      (threads : after.threads = Function.update s.threads t
        { currentService := some (.idle t), prevService := none, phase := .resumePrev }) :
      Traffic s (.threadMain t) after
  | exit {after : State} {t : Nat} {x : ServiceId} (runs : s.Runs t x)
      (point : (s.services x).point = .idle) (queue : after.runQueue = s.runQueue)
      (threads : after.threads = Function.update s.threads t {}) : Traffic s (.threadExit t) after

theorem traffic_switchTo {s : State} {label : Label} {t : Nat} {x : ServiceId} (resume : Point)
    {stay : State → State} (calls : label = .schedule t ∨ label = .yield t) (runs : s.Runs t x)
    (threads : ∀ s, (stay s).threads = s.threads) (queue : ∀ s, (stay s).runQueue = s.runQueue) :
    s.Traffic label (s.switchTo t x resume stay) := by
  cases waiting : s.runQueue with
  | nil =>
      rw [State.switchTo, getReadyService_nil waiting]
      dsimp only
      split
      · exact .feeds (Or.inr waiting) (.of_eq (threads _) (queue _))
      · next other => exact .switch calls runs other (Or.inr ⟨waiting, rfl, waiting⟩) rfl
  | cons next rest =>
      rw [State.switchTo, getReadyService_cons waiting]
      dsimp only
      split
      · next same =>
          refine .stay calls runs ?_ (threads _)
          rw [queue, waiting, same]
      · next other => exact .switch calls runs other (Or.inl waiting) rfl

end State

/-- Every step is one of these. -/
theorem traffic_of_step {s after : State} {label : Label} (stepped : step s label = some after) :
    s.Traffic label after := by
  unfold step at stepped
  split at stepped
  · cases stepped
  · cases label with
    | threadMain t =>
        simp only [State.threadMain] at stepped
        split at stepped
        · next outside =>
            cases stepped
            exact .enter outside rfl rfl
        · cases stepped
    | threadExit t =>
        obtain ⟨x, current, phase, acted⟩ := State.onCurrent_eq_some.mp stepped
        simp only [State.threadExit] at acted
        split at acted
        · next exits =>
            cases acted
            exact .exit ⟨current, phase⟩ exits.1 rfl rfl
        · cases acted
    | schedule t =>
        obtain ⟨x, current, phase, acted⟩ := State.onCurrent_eq_some.mp stepped
        unfold State.schedule at acted
        split at acted
        · cases acted
          exact State.traffic_switchTo _ (Or.inl rfl) ⟨current, phase⟩ (fun _ => rfl) fun _ => rfl
        · cases acted
          exact State.traffic_switchTo _ (Or.inl rfl) ⟨current, phase⟩ (fun _ => rfl) fun _ => rfl
        · cases acted
          exact State.traffic_switchTo _ (Or.inl rfl) ⟨current, phase⟩ (fun _ => rfl) fun _ => rfl
        · cases acted
    | yield t =>
        obtain ⟨x, current, phase, point, acted⟩ := State.onUser_eq_some.mp stepped
        cases acted
        exact State.traffic_switchTo _ (Or.inr rfl) ⟨current, phase⟩ (fun _ => rfl) fun _ => rfl
    | tick =>
        cases stepped
        exact .feeds (Or.inl rfl) (.of_eq rfl rfl)
    | launchService type =>
        cases stepped
        exact .feeds (Or.inl rfl) (.launchService s type)
    | sendMessage destination type closure =>
        obtain ⟨i, rfl, -, -, rfl⟩ := State.onService_eq_some.mp stepped
        exact .feeds (Or.inl rfl) (.sendMessage s _)
    | sendNotFound destination type closure => exact .feeds (Or.inl rfl) (.sendNotFound stepped)
    | stopService y =>
        obtain ⟨i, rfl, -, -, rfl⟩ := State.onService_eq_some.mp stepped
        refine .feeds (Or.inl rfl) ?_
        simp only [State.stopService]
        split
        · exact .refl s
        · exact ((State.Feeds.refl s).setService _ _).wakeup _ _
    | interruptService y =>
        obtain ⟨i, rfl, -, -, rfl⟩ := State.onService_eq_some.mp stepped
        refine .feeds (Or.inl rfl) ?_
        simp only [State.interruptService]
        split
        · exact .wakeup (.refl s) _ _
        · exact .refl s
    | wakeUp y e =>
        obtain ⟨i, rfl, -, -, rfl⟩ := State.onService_eq_some.mp stepped
        exact .feeds (Or.inl rfl) (.wakeup (.refl s) _ _)
    | onIoReady y ioEvents =>
        obtain ⟨i, rfl, -, -, rfl⟩ := State.onService_eq_some.mp stepped
        refine .feeds (Or.inl rfl) ?_
        simp only [State.onIoReady]
        split
        · exact ((State.Feeds.refl s).setService _ _).wakeup _ _
        · exact .refl s
    | waitSignal t =>
        obtain ⟨y, current, phase, point, acted⟩ := State.onUser_eq_some.mp stepped
        cases acted
        exact .feeds (Or.inl rfl) (.commit ..)
    | sleepService t milliseconds =>
        obtain ⟨y, current, phase, point, acted⟩ := State.onUser_eq_some.mp stepped
        cases acted
        refine .feeds (Or.inl rfl) ?_
        simp only [State.sleepService]
        split
        · exact .of_eq rfl rfl
        · exact .commit ..
    | waitIo t fd added =>
        obtain ⟨y, current, phase, point, acted⟩ := State.onUser_eq_some.mp stepped
        cases acted
        refine .feeds (Or.inl rfl) ?_
        simp only [State.waitIo]
        split
        · exact .commit ..
        · exact .of_eq rfl rfl
    | callMethod t destination withClosure =>
        obtain ⟨y, current, phase, point, acted⟩ := State.onUser_eq_some.mp stepped
        obtain ⟨i, rfl, -, -, rfl⟩ := State.onService_eq_some.mp acted
        refine .feeds (Or.inl rfl) ?_
        have sent := State.Feeds.sendMessage s (s.callMessage y (.launched i) withClosure)
        simp only [State.callMethod]
        split
        · next middle outcome =>
            rw [outcome] at sent
            exact sent.setService _ _
        · next middle outcome =>
            rw [outcome] at sent
            exact sent
    | callNotFound t destination withClosure =>
        obtain ⟨y, current, phase, point, acted⟩ := State.onUser_eq_some.mp stepped
        exact .feeds (Or.inl rfl) (.sendNotFound acted)
    | waitResponse t =>
        obtain ⟨y, current, phase, acted⟩ := State.onCurrent_eq_some.mp stepped
        simp only [State.waitResponse] at acted
        split at acted
        · cases acted
          exact .feeds (Or.inl rfl) (.commit ..)
        · cases acted
    | onResumePrev t =>
        rcases State.onResumePrev_feeds stepped with fed | fed
        · exact .feeds (Or.inl rfl) fed
        · exact .resume (Or.inl rfl) fed.threads rfl fed.queue
    | onResumeCur t =>
        obtain ⟨phase, threads, queue⟩ := State.onResumeCur_feeds stepped
        exact .resume (Or.inr ⟨rfl, phase⟩) threads rfl ⟨[], by rw [queue, List.append_nil]⟩
    | waitResumed t =>
        obtain ⟨y, current, phase, acted⟩ := State.onCurrent_eq_some.mp stepped
        simp only [State.waitResumed] at acted
        split at acted
        · cases acted
          exact .feeds (Or.inl rfl) (.commit ..)
        · cases acted
    | serviceLoop t =>
        obtain ⟨y, current, phase, acted⟩ := State.onCurrent_eq_some.mp stepped
        exact .feeds (Or.inl rfl) (.serviceLoop acted)
    | userReturn t =>
        obtain ⟨y, current, phase, point, acted⟩ := State.onUser_eq_some.mp stepped
        exact .feeds (Or.inl rfl) (.userReturn acted)
    | handleNotMethodCall t =>
        obtain ⟨y, current, phase, point, acted⟩ := State.onUser_eq_some.mp stepped
        simp only [State.handleNotMethodCall] at acted
        split at acted
        · split at acted
          · cases acted
          · cases acted
            exact .feeds (Or.inl rfl) (.of_eq rfl rfl)
        · cases acted
    | done t =>
        obtain ⟨y, current, phase, acted⟩ := State.onCurrent_eq_some.mp stepped
        exact .feeds (Or.inl rfl) (.done acted)
    | runClosure m =>
        simp only [State.runClosure] at stepped
        split at stepped
        · cases stepped
        · split at stepped
          · refine .feeds (Or.inl rfl) (.respond ?_ stepped)
            exact .of_eq rfl rfl
          · cases stepped
    | retire t =>
        obtain ⟨y, current, phase, acted⟩ := State.onCurrent_eq_some.mp stepped
        exact .feeds (Or.inl rfl) (.retire acted)

/-- Only `ThreadMain` gives a service to a thread that has none. -/
theorem threadMain_of_step {s after : State} {label : Label} {t : Nat}
    (stepped : step s label = some after) (before : (s.threads t).currentService = none)
    (now : (after.threads t).currentService ≠ none) : label = .threadMain t := by
  cases traffic_of_step stepped with
  | feeds calm feeds => exact absurd before (feeds.threads ▸ now)
  | @resume _ _ u thread calls threads current queue =>
      rw [threads, Function.update_apply] at now
      split at now
      · next same =>
          rw [current, ← same] at now
          exact absurd before now
      · exact absurd before now
  | @switch _ _ u x next calls runs other taken threads =>
      rw [threads, Function.update_apply] at now
      split at now
      · next same =>
          rw [same, runs.1] at before
          cases before
      · exact absurd before now
  | stay calls runs taken threads => exact absurd before (threads ▸ now)
  | @enter _ u outside queue threads =>
      rw [threads, Function.update_apply] at now
      split at now
      · next same => rw [same]
      · exact absurd before now
  | @exit _ u x runs point queue threads =>
      rw [threads, Function.update_apply] at now
      split at now
      · exact absurd rfl now
      · exact absurd before now

/-! ## Order of service -/

/-- The step takes a service from the run queue. -/
def State.takes (s : State) (label : Label) : Bool := label.switches && !s.runQueue.isEmpty

/-- How many services the labels take from the run queue. -/
def State.taken : State → List Label → Nat
  | _, [] => 0
  | s, label :: labels =>
      match step s label with
      | none => 0
      | some next => (if s.takes label then 1 else 0) + next.taken labels

theorem State.taken_cons {s next : State} {label : Label} {labels : List Label}
    (stepped : step s label = some next) :
    s.taken (label :: labels) = (if s.takes label then 1 else 0) + next.taken labels := by
  rw [State.taken, stepped]

/-- The thread has just been switched to the service. -/
def State.Resumes (s : State) (x : ServiceId) : Prop :=
  ∃ t, (s.threads t).currentService = some x ∧ (s.threads t).phase = .resumePrev

/-- A step takes nothing from the queue, or the head, which it resumes. -/
theorem queue_of_step {s after : State} {label : Label} (placed : Placed true s)
    (stepped : step s label = some after) :
    (s.takes label = false ∧ ∃ joined, after.runQueue = s.runQueue ++ joined) ∨
      (s.takes label = true ∧ ∃ next, s.runQueue = next :: after.runQueue ∧ after.Resumes next) := by
  obtain ⟨place, coherent⟩ := placed
  cases traffic_of_step stepped with
  | feeds calm feeds =>
      refine Or.inl ⟨?_, feeds.queue⟩
      rcases calm with other | empty
      · simp [State.takes, other]
      · simp [State.takes, empty]
  | resume calls threads current queue =>
      have still : label.switches = false := by rcases calls with rfl | ⟨rfl, -⟩ <;> rfl
      exact Or.inl ⟨by simp [State.takes, still], queue⟩
  | @switch _ _ t x next calls runs other taken threads =>
      have switches : label.switches = true := by rcases calls with rfl | rfl <;> rfl
      rcases taken with taken | ⟨empty, -, still⟩
      · refine Or.inr ⟨by simp [State.takes, switches, taken], next, taken, t, ?_⟩
        simp [threads]
      · exact Or.inl ⟨by simp [State.takes, empty], [], by simp [empty, still]⟩
  | @stay _ _ t x calls runs taken threads =>
      -- the service that runs is in no queue
      have queued : place x = .queued := (coherent.queued x).mp (by simp [taken])
      have running : place x = .running t := (coherent.running t x).mp runs
      rw [queued] at running
      cases running
  | enter outside queue threads =>
      exact Or.inl ⟨rfl, [], by rw [queue, List.append_nil]⟩
  | exit runs point queue threads =>
      exact Or.inl ⟨rfl, [], by rw [queue, List.append_nil]⟩

/-- On the way the service is resumed by the step that takes a service after `n` others. -/
def State.ResumedAfter (s : State) (labels : List Label) (n : Nat) (x : ServiceId) : Prop :=
  ∃ earlier label later middle next, labels = earlier ++ label :: later ∧
    Transition.run step s earlier = some middle ∧ s.taken earlier = n ∧
      step middle label = some next ∧ next.Resumes x

theorem State.ResumedAfter.cons {s next : State} {label : Label} {labels : List Label} {n : Nat}
    {x : ServiceId} (later : next.ResumedAfter labels n x) (stepped : step s label = some next) :
    s.ResumedAfter (label :: labels) ((if s.takes label then 1 else 0) + n) x := by
  obtain ⟨earlier, label', later, middle, next', rfl, run, taken, steps, resumes⟩ := later
  refine ⟨label :: earlier, label', later, middle, next', rfl, ?_, ?_, steps, resumes⟩
  · exact Transition.run_cons_eq_some.mpr ⟨next, stepped, run⟩
  · rw [State.taken_cons stepped, taken]

/-- The service `x`, which stood between `ahead` and `behind`, is still in the queue, with fewer
services before it and none that passed it; or exactly the services ahead were taken, and then it
was resumed. -/
def State.InTurn (s : State) (labels : List Label) (after : State) (ahead : List ServiceId)
    (x : ServiceId) (behind : List ServiceId) : Prop :=
  (s.taken labels ≤ ahead.length ∧
      ∃ joined, after.runQueue = ahead.drop (s.taken labels) ++ x :: (behind ++ joined)) ∨
    (ahead.length < s.taken labels ∧ s.ResumedAfter labels ahead.length x)

theorem inTurn {s after : State} {labels : List Label} {ahead behind : List ServiceId}
    {x : ServiceId} (placed : Placed true s) (queue : s.runQueue = ahead ++ x :: behind)
    (execution : Transition.run step s labels = some after) :
    s.InTurn labels after ahead x behind := by
  induction labels generalizing s ahead behind with
  | nil =>
      obtain rfl : s = after := by simpa using execution
      exact Or.inl ⟨Nat.zero_le _, [], by simp [State.taken, queue]⟩
  | cons label labels ih =>
      obtain ⟨next, stepped, rest⟩ := Transition.run_cons_eq_some.mp execution
      have placed' := placed.step (Or.inl rfl) stepped
      have count := @State.taken_cons s next label labels stepped
      rcases queue_of_step placed stepped with ⟨idle, joined, longer⟩ | ⟨takes, head, popped, resumes⟩
      · have queue' : next.runQueue = ahead ++ x :: (behind ++ joined) := by
          rw [longer, queue, List.append_assoc, List.cons_append]
        rw [idle, if_neg Bool.false_ne_true, Nat.zero_add] at count
        rcases ih placed' queue' rest with ⟨few, later, final⟩ | ⟨many, later⟩
        · exact Or.inl ⟨count ▸ few, joined ++ later, by rw [final, count, List.append_assoc]⟩
        · have whole := later.cons stepped
          rw [idle, if_neg Bool.false_ne_true, Nat.zero_add] at whole
          exact Or.inr ⟨count ▸ many, whole⟩
      · rw [takes, if_pos rfl] at count
        cases ahead with
        | nil =>
            obtain ⟨rfl, -⟩ : x = head ∧ behind = next.runQueue := by
              simpa using queue.symm.trans popped
            have more : ([] : List ServiceId).length < s.taken (label :: labels) := by
              rw [List.length_nil]
              omega
            exact Or.inr ⟨more, [], label, labels, s, next, rfl, rfl, rfl, stepped, resumes⟩
        | cons first ahead =>
            obtain ⟨-, queue'⟩ : first = head ∧ ahead ++ x :: behind = next.runQueue := by
              simpa using queue.symm.trans popped
            rcases ih placed' queue'.symm rest with ⟨few, later, final⟩ | ⟨many, later⟩
            · refine Or.inl ⟨by simp only [List.length_cons]; omega, later, ?_⟩
              rw [final, count, Nat.add_comm, List.drop_succ_cons]
            · have whole := later.cons stepped
              rw [takes, if_pos rfl, Nat.add_comm] at whole
              exact Or.inr ⟨by simp only [List.length_cons]; omega, whole⟩

/-- In every execution the run queue is served in order: a ready service waits for the services
before it and for no other, and is resumed when they have been. -/
theorem served_in_order_of_run {labels continuation : List Label} {s after : State}
    {ahead behind : List ServiceId} {x : ServiceId}
    (execution : Transition.run step initial labels = some s)
    (queue : s.runQueue = ahead ++ x :: behind)
    (continued : Transition.run step s continuation = some after) :
    s.InTurn continuation after ahead x behind :=
  inTurn (placed_of_run execution) queue continued

/-- A worker with two user threads in the queue. -/
def twoReadyTrace : List Label :=
  [.threadMain 0, .onResumePrev 0, .onResumeCur 0, .launchService .userThread,
    .launchService .userThread]

/-- It runs the first one until that waits, and then the second. -/
def bothServedTrace : List Label :=
  [.schedule 0, .onResumePrev 0, .onResumeCur 0, .waitSignal 0, .schedule 0]

theorem served_in_order_of_run_twoReadyTrace :
    ∃ s after, Transition.run step initial twoReadyTrace = some s ∧
      Transition.run step s bothServedTrace = some after ∧ s.taken bothServedTrace = 2 ∧
        s.InTurn bothServedTrace after [.launched 17] (.launched 18) [] :=
  ⟨_, _, rfl, rfl, rfl, @served_in_order_of_run twoReadyTrace bothServedTrace _ _ _ _ _ rfl rfl rfl⟩

end Mcast
