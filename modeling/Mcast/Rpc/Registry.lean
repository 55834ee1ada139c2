import Mathlib.Logic.Function.Basic
import Mcast.Rpc.Channel

/-!
# The services of a server

`AddService` and the first part of `CallServiceMethod` of `src/RpcServer.cpp`.  `AddService`
launches an actor for the service and then enters both in `rpc_services_` under the short name of
the descriptor.  The entry is made by `emplace`, which does nothing if the name is taken, but the
handle of the new actor is returned all the same.  The actor runs on, and no request reaches it.
-/

namespace Mcast

namespace RpcServer

/-- The descriptors of the service objects `S`. -/
structure Descriptors (S Message : Type) where
  /-- `GetDescriptor()->name()`, without the package. -/
  name : S → Bytes
  findMethodByName : S → Bytes → Option (Method Message)

/-- `struct Item`, with the index of the handle. -/
structure Item (S : Type) where
  srvHandle : Nat
  rpcService : S
  deriving DecidableEq, Repr

/-- `rpc_services_`, the last index that the system has given out, the services whose handles
`AddService` has returned, and what its last call has returned. -/
structure Services (S : Type) where
  rpcServices : Bytes → Option (Item S) := fun _ => none
  serviceIndexAlloc : Nat := 0
  added : List (Item S) := []
  last : Option (Item S) := none

/-- A call of `AddService`, with the index of the launched actor or nothing if `LaunchService`
fails. -/
structure AddCall (S : Type) where
  rpcService : S
  launched : Option Nat
  deriving DecidableEq, Repr

namespace Services

variable {S Message : Type}

/-- `std::unordered_map::emplace`. -/
def emplace (rpcServices : Bytes → Option (Item S)) (name : Bytes) (item : Item S) :
    Bytes → Option (Item S) :=
  match rpcServices name with
  | some _ => rpcServices
  | none => Function.update rpcServices name (some item)

section

variable (descriptors : Descriptors S Message)

/-- `AddService`; an index is given out once. -/
def addService (s : Services S) (call : AddCall S) : Option (Services S) :=
  match call.launched with
  | none => some { s with last := none }
  | some h =>
      if s.serviceIndexAlloc < h then
        let item : Item S := ⟨h, call.rpcService⟩
        some
          { rpcServices := emplace s.rpcServices (descriptors.name call.rpcService) item
            serviceIndexAlloc := h
            added := s.added ++ [item]
            last := some item }
      else none

/-- The call that `CallServiceMethod` makes on the actor of an item. -/
structure Dispatch (S Message : Type) where
  item : Item S
  method : Method Message
  request : Message

/-- What `CallServiceMethod` does with an item. -/
def dispatchTo (item : Item S) (request : RpcRequest) : Except Bytes (Dispatch S Message) :=
  match descriptors.findMethodByName item.rpcService request.method with
  | none => .error (ascii "can't find method" ++ request.method)
  | some method =>
      match method.requestPrototype.parse request.argumentBytes with
      | none => .error (ascii "ParseFromString error")
      | some message => .ok { item, method, request := message }

/-- `CallServiceMethod` up to the call on the actor. -/
def dispatch (s : Services S) (request : RpcRequest) : Except Bytes (Dispatch S Message) :=
  match s.rpcServices request.service with
  | none => .error (ascii "can't find service" ++ request.service)
  | some item => dispatchTo descriptors item request

/-- The services and their methods by name. -/
def registry (s : Services S) : Registry Message :=
  fun name => (s.rpcServices name).map fun item => descriptors.findMethodByName item.rpcService

/-- The rest of `CallServiceMethod`. -/
theorem callServiceMethod_eq_dispatch (s : Services S) (request : RpcRequest)
    (invocation : Invocation Message) :
    callServiceMethod (s.registry descriptors) request invocation =
      match s.dispatch descriptors request with
      | .error reason => .error reason
      | .ok dispatched =>
          if invocation.status = .ok then
            match invocation.failure with
            | some reason => .error reason
            | none => .ok (dispatched.method.responsePrototype, invocation.response)
          else .error invocation.status.errorText := by
  rw [callServiceMethod, registry, dispatch]
  cases s.rpcServices request.service with
  | none => rfl
  | some item =>
      rw [Option.map_some]
      simp only [dispatchTo]
      cases descriptors.findMethodByName item.rpcService request.method with
      | none => rfl
      | some method =>
          dsimp only
          cases method.requestPrototype.parse request.argumentBytes with
          | none => rfl
          | some message => rfl

/-- Requests for the service added last reach it on the handle that was returned, and every actor
whose handle was returned is in `rpc_services_`. -/
structure Consistent (s : Services S) : Prop where
  dispatched : ∀ item, s.last = some item → ∀ request : RpcRequest,
    request.service = descriptors.name item.rpcService →
      s.dispatch descriptors request = dispatchTo descriptors item request
  reachable : ∀ item ∈ s.added, ∃ name entry, s.rpcServices name = some entry ∧
    entry.srvHandle = item.srvHandle

/-- The name of the service is not taken, or no actor is launched. -/
def nameFree (s : Services S) (call : AddCall S) : Bool :=
  call.launched = none || (s.rpcServices (descriptors.name call.rpcService)).isNone

/-- Every returned handle is that of an entry under the name of its service, and no entry has an
index that was not given out. -/
structure Sound (s : Services S) : Prop where
  entries : ∀ item ∈ s.added, s.rpcServices (descriptors.name item.rpcService) = some item
  last : ∀ item, s.last = some item → item ∈ s.added
  given : ∀ name item, s.rpcServices name = some item → item.srvHandle ≤ s.serviceIndexAlloc

end

variable {descriptors : Descriptors S Message} {s after : Services S}

theorem Sound.consistent (sound : s.Sound descriptors) : s.Consistent descriptors where
  dispatched item last request named := by
    rw [dispatch, named, sound.entries item (sound.last item last)]
  reachable item member := ⟨_, item, sound.entries item member, rfl⟩

theorem Sound.addService {call : AddCall S} (sound : s.Sound descriptors)
    (added : s.addService descriptors call = some after)
    (allowed : s.nameFree descriptors call = true) : after.Sound descriptors := by
  obtain ⟨rpcService, launched⟩ := call
  cases launched with
  | none =>
      cases added
      exact ⟨sound.entries, by simp, sound.given⟩
  | some h =>
      simp only [Services.addService, Option.ite_none_right_eq_some, Option.some.injEq] at added
      obtain ⟨fresh, rfl⟩ := added
      have free : s.rpcServices (descriptors.name rpcService) = none := by
        simpa [nameFree] using allowed
      have entered : emplace s.rpcServices (descriptors.name rpcService) ⟨h, rpcService⟩ =
          Function.update s.rpcServices (descriptors.name rpcService) (some ⟨h, rpcService⟩) := by
        rw [emplace, free]
      rw [entered]
      refine ⟨?_, ?_, ?_⟩
      · intro item member
        rcases List.mem_append.mp member with old | new
        · have entry := sound.entries item old
          have other : descriptors.name item.rpcService ≠ descriptors.name rpcService := by
            intro same
            rw [same, free] at entry
            cases entry
          exact (Function.update_of_ne other _ _).trans entry
        · rw [List.mem_singleton.mp new]
          exact Function.update_self ..
      · rintro item ⟨⟩
        exact List.mem_append_right _ (List.mem_singleton_self _)
      · intro name item entry
        change item.srvHandle ≤ h
        by_cases same : name = descriptors.name rpcService
        · subst same
          obtain rfl : (⟨h, rpcService⟩ : Item S) = item := by
            simpa using entry
          exact Nat.le_refl h
        · have old : s.rpcServices name = some item := by
            simpa [same] using entry
          exact Nat.le_of_lt (Nat.lt_of_le_of_lt (sound.given name item old) fresh)

/-- An actor launched under a taken name is in no entry. -/
theorem Sound.nameFree_of_consistent {call : AddCall S} (sound : s.Sound descriptors)
    (added : s.addService descriptors call = some after)
    (consistent : after.Consistent descriptors) : s.nameFree descriptors call = true := by
  obtain ⟨rpcService, launched⟩ := call
  cases launched with
  | none => rfl
  | some h =>
      cases taken : s.rpcServices (descriptors.name rpcService) with
      | none => simp [nameFree, taken]
      | some earlier =>
          simp only [Services.addService, Option.ite_none_right_eq_some, Option.some.injEq] at added
          obtain ⟨fresh, rfl⟩ := added
          obtain ⟨name, entry, found, same⟩ := consistent.reachable ⟨h, rpcService⟩ (by simp)
          have old : s.rpcServices name = some entry := by
            simpa [emplace, taken] using found
          have bound := sound.given name entry old
          rw [same] at bound
          exact absurd bound (Nat.not_le_of_lt fresh)

/-- Through every sequence of `AddService` calls the registry, the returned handles and the running
actors agree, if and only if no actor is launched under a name that is taken. -/
theorem consistent_iff_nameFree (descriptors : Descriptors S Message) {calls : List (AddCall S)}
    {s : Services S}
    (execution : Transition.run (addService descriptors) {} calls = some s) :
    Transition.Always (addService descriptors) (Consistent descriptors) {} calls ↔
      Transition.run
        (Transition.restrict (addService descriptors) (nameFree descriptors)) {} calls = some s :=
  Transition.always_iff_restrict
    (fun _ _ _ sound added allowed => Sound.addService sound added allowed)
    (fun _ sound => Sound.consistent sound)
    (fun _ _ _ sound added consistent => Sound.nameFree_of_consistent sound added consistent)
    ⟨by simp, by simp, by simp⟩ execution

/-- Two services with one name, as two packages may have them, and one with another name. -/
def packages : Descriptors (Nat) Unit where
  name service := if service = 2 then ascii "Log" else ascii "Echo"
  findMethodByName _ _ := none

def distinctCalls : List (AddCall (Nat)) := [⟨0, some 1⟩, ⟨1, none⟩, ⟨2, some 4⟩]

theorem consistent_iff_nameFree_distinctCalls :
    ∃ s, Transition.run (addService packages) {} distinctCalls = some s ∧
      s.rpcServices (ascii "Log") = some ⟨4, 2⟩ ∧
      Transition.Always (addService packages) (Consistent packages) {} distinctCalls :=
  ⟨_, rfl, rfl,
    (@consistent_iff_nameFree (Nat) Unit packages distinctCalls _ rfl).mpr rfl⟩

def sameNameCalls : List (AddCall (Nat)) := [⟨0, some 1⟩, ⟨1, some 2⟩]

theorem second_service_unreachable :
    ∃ s, Transition.run (addService packages) {} sameNameCalls = some s ∧
      s.last = some ⟨2, 1⟩ ∧ s.rpcServices (ascii "Echo") = some ⟨1, 0⟩ ∧
      ¬ Transition.Always (addService packages) (Consistent packages) {} sameNameCalls := by
  refine ⟨_, rfl, rfl, rfl, ?_⟩
  intro always
  have consistent := always sameNameCalls [] _ (List.append_nil _) rfl
  obtain ⟨name, entry, found, same⟩ := consistent.reachable ⟨2, 1⟩ (List.mem_of_getLast? rfl)
  have kept : Function.update (fun _ => none) (ascii "Echo") (some (⟨1, 0⟩ : Item Nat)) name =
      some entry := found
  by_cases here : name = ascii "Echo"
  · subst here
    obtain rfl : (⟨1, 0⟩ : Item Nat) = entry := by simpa using kept
    cases same
  · rw [Function.update_of_ne here] at kept
    cases kept

end Services

end RpcServer

end Mcast
