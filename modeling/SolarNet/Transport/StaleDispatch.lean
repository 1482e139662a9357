import SolarNet.Transport.ConnectionBatch

/-!
# Channels that are removed while they wait in the batch

`Loop()` calls `HandleEvent` on one channel of the batch after the other, and a handler
may take any channel out of the poller, or destroy it, before its turn comes.  `Stop` in a
handler, for instance, destroys the acceptor with the listening channel and closes all
connections.

`DispatchLoop` is the loop thread with its connections (`ConnectionLoop`) and with all its
other channels: the listening channel, those of timers and of the wakeup, and channels of
user code.  The batch has both kinds in the order in which `Poll` returned them.  The
result of this file is that `HandleEvent` is called only on registered channels of objects
that live, as long as no handler takes a channel away that is still waiting.
-/

namespace SolarNet

open Lib

/-- A channel that belongs to no connection. -/
structure OtherChannel where
  channel : Channel
  alive : Bool
  deriving DecidableEq, Repr

structure DispatchLoop (ι κ : Type*) where
  loop : ConnectionLoop ι
  others : κ → OtherChannel
  /-- What is left of `active_channels`; the connections in it are `loop.active`. -/
  batch : List (ι ⊕ κ)

inductive DispatchLabel (ι κ : Type*) where
  /-- `Poll` returns these channels.  What the events of a channel without a connection
  are makes no difference here: its callbacks are user code. -/
  | poll (ready : List ((ι × PollEvents) ⊕ κ))
  /-- `HandleEvent` on the next channel of the batch. -/
  | dispatch
  /-- A step of the connections, of the library or of user code. -/
  | connections (label : ConnectionLabel ι)
  /-- Code on the loop thread calls `EnableReading`, `DisableAll` or another of these. -/
  | update (chan : κ) (events : PollEvents)
  | remove (chan : κ)
  /-- The channel is destroyed, together with its descriptor or without it.  A closed
  descriptor leaves the epoll set. -/
  | destroy (chan : κ) (closesFd : Bool)

namespace DispatchLoop

open ConnectionLoop

variable {ι κ : Type*}

/-- No channel is registered. -/
def new (callbacks : ι → ConnCallbacks) (highWaterMark : ι → Nat) : DispatchLoop ι κ where
  loop := ConnectionLoop.new callbacks highWaterMark
  others := fun _ => ⟨Channel.new, true⟩
  batch := []

/-- A step of the connections that the loop thread can make here.  Functors run when the
batch is done. -/
def admits (d : DispatchLoop ι κ) : ConnectionLabel ι → Bool
  | .poll _ | .dispatch => false
  | .enter => d.batch.isEmpty
  | _ => true

variable [DecidableEq ι] [DecidableEq κ]

/-- The innermost call is user code, or library code that works on other channels. -/
def userRuns (d : DispatchLoop ι κ) (chan : κ) : Bool :=
  d.loop.stack.head? == some .user && (d.others chan).alive

def canPoll (d : DispatchLoop ι κ) (ready : List ((ι × PollEvents) ⊕ κ)) : Bool :=
  d.batch.isEmpty && d.loop.canPoll (ready.filterMap Sum.getLeft?) &&
    decide (ready.filterMap Sum.getRight?).Nodup &&
    (ready.filterMap Sum.getRight?).all fun chan => (d.others chan).channel.interest.isSome

def poll (d : DispatchLoop ι κ) (ready : List ((ι × PollEvents) ⊕ κ)) : DispatchLoop ι κ :=
  { d with
    loop := d.loop.poll (ready.filterMap Sum.getLeft?)
    batch := ready.map (Sum.map Prod.fst id) }

/-- `Loop()` calls `HandleEvent` on the next channel. -/
def dispatch (d : DispatchLoop ι κ) : Option (DispatchLoop ι κ) :=
  match d.loop.stack, d.batch with
  | [], .inl _ :: rest => d.loop.dispatch.map fun loop => { d with loop := loop, batch := rest }
  | [], .inr chan :: rest =>
      if (d.others chan).alive then some { d with loop := d.loop.push .user, batch := rest }
      else none
  | _, _ => none

def setChannel (d : DispatchLoop ι κ) (chan : κ) (other : OtherChannel) : DispatchLoop ι κ :=
  { d with others := Function.update d.others chan other }

def step (d : DispatchLoop ι κ) : DispatchLabel ι κ → Option (DispatchLoop ι κ)
  | .poll ready => if d.canPoll ready then some (d.poll ready) else none
  | .dispatch => d.dispatch
  | .connections label =>
      if d.admits label then
        (ConnectionLoop.step d.loop label).map fun loop => { d with loop := loop }
      else none
  | .update chan events =>
      if d.userRuns chan then
        some (d.setChannel chan { d.others chan with
          channel := { (d.others chan).channel with events := events }.updateChannel })
      else none
  | .remove chan =>
      if d.userRuns chan then
        some (d.setChannel chan { d.others chan with
          channel := (d.others chan).channel.removeChannel })
      else none
  | .destroy chan closesFd =>
      if d.userRuns chan then
        some (d.setChannel chan {
          channel := { (d.others chan).channel with
            interest := if closesFd then none else (d.others chan).channel.interest }
          alive := false })
      else none

/-! ## What is asked of a step -/

/-- The channel is in the poller, and the object that it belongs to lives. -/
def Present (d : DispatchLoop ι κ) : ι ⊕ κ → Prop
  | .inl i => (d.loop.conns i).channel.mapped = true ∧ (d.loop.conns i).channel.index ≠ .kNew ∧
      d.loop.alive i = true
  | .inr chan => (d.others chan).channel.mapped = true ∧
      (d.others chan).channel.index ≠ .kNew ∧ (d.others chan).alive = true

/-- When `Loop()` is about to call `HandleEvent` on a channel, it is present. -/
def DispatchSafe (d : DispatchLoop ι κ) : Prop :=
  d.loop.stack = [] → ∀ waiting rest, d.batch = waiting :: rest → d.Present waiting

/-- The step takes no channel that waits in the batch out of the poller, does not destroy
it, and leaves no channel in the epoll set that it destroys. -/
def KeepsWaiting (d : DispatchLoop ι κ) : DispatchLabel ι κ → Prop
  | .connections label => KeepsConnections d.loop label
  | .remove chan => .inr chan ∉ d.batch
  | .destroy chan closesFd =>
      .inr chan ∉ d.batch ∧ (closesFd = true ∨ (d.others chan).channel.interest = none)
  | .poll _ | .dispatch | .update _ _ => True

/-- The invariant behind safe dispatch. -/
structure Inv (d : DispatchLoop ι κ) : Prop where
  loop : DispatchInv d.loop
  active_eq : d.loop.active = d.batch.filterMap Sum.getLeft?
  registered : ∀ chan, (d.others chan).alive = true → (d.others chan).channel.Registered
  destroyed : ∀ chan, (d.others chan).alive = false → (d.others chan).channel.interest = none
  waiting : ∀ chan, .inr chan ∈ d.batch →
    (d.others chan).alive = true ∧ (d.others chan).channel.index ≠ .kNew

omit [DecidableEq ι] [DecidableEq κ] in
theorem new_inv (callbacks : ι → ConnCallbacks) (highWaterMark : ι → Nat) :
    (new callbacks highWaterMark : DispatchLoop ι κ).Inv where
  loop := new_dispatchInv callbacks highWaterMark
  active_eq := rfl
  registered _ _ := Channel.new_registered
  destroyed := nofun
  waiting := nofun

variable {d d' : DispatchLoop ι κ}

omit [DecidableEq ι] [DecidableEq κ] in
theorem Inv.mem_active (hInv : d.Inv) {i : ι} : i ∈ d.loop.active ↔ .inl i ∈ d.batch := by
  simp [hInv.active_eq, List.mem_filterMap]

omit [DecidableEq κ] in
/-- What waits is present. -/
theorem Inv.safe (hInv : d.Inv) : d.DispatchSafe := by
  intro _ waiting rest hBatch
  cases waiting with
  | inl i =>
      have hMem : i ∈ d.loop.active := hInv.mem_active.mpr (by simp [hBatch])
      have hIndex := hInv.loop.waiting i hMem
      refine ⟨(hInv.loop.registered i).mapped_of_index hIndex, hIndex, ?_⟩
      by_cases hServer : d.loop.ofServer i
      · simp [alive, (hInv.loop.conn i hServer).owned_of_index hIndex]
      · simp [alive, hInv.loop.held i hMem hServer]
  | inr chan =>
      obtain ⟨hAlive, hIndex⟩ := hInv.waiting chan (by simp [hBatch])
      exact ⟨(hInv.registered chan hAlive).mapped_of_index hIndex, hIndex, hAlive⟩

omit [DecidableEq ι] in
/-- A change of one of the other channels. -/
theorem Inv.setChannel (hInv : d.Inv) {chan : κ} {other : OtherChannel}
    (hRegistered : other.alive = true → other.channel.Registered)
    (hDestroyed : other.alive = false → other.channel.interest = none)
    (hWaiting : .inr chan ∈ d.batch → other.alive = true ∧ other.channel.index ≠ .kNew) :
    (d.setChannel chan other).Inv := by
  have hOther : ∀ k, k ≠ chan → (d.setChannel chan other).others k = d.others k :=
    fun k hk => Function.update_of_ne hk _ _
  have hSelf : (d.setChannel chan other).others chan = other := Function.update_self _ _ _
  refine ⟨hInv.loop, hInv.active_eq, fun k => ?_, fun k => ?_, fun k => ?_⟩
  · by_cases hk : k = chan
    · rw [hk, hSelf]
      exact hRegistered
    · rw [hOther k hk]
      exact hInv.registered k
  · by_cases hk : k = chan
    · rw [hk, hSelf]
      exact hDestroyed
    · rw [hOther k hk]
      exact hInv.destroyed k
  · by_cases hk : k = chan
    · rw [hk, hSelf]
      exact hWaiting
    · rw [hOther k hk]
      exact hInv.waiting k

theorem Inv.poll (hInv : d.Inv) {ready : List ((ι × PollEvents) ⊕ κ)}
    (hCan : d.canPoll ready = true) : (d.poll ready).Inv := by
  simp only [canPoll, Bool.and_eq_true, List.all_eq_true] at hCan
  obtain ⟨⟨⟨-, hLoop⟩, -⟩, hReady⟩ := hCan
  refine ⟨hInv.loop.poll hLoop, ?_, hInv.registered, hInv.destroyed, fun chan hMem => ?_⟩
  · show (ready.filterMap Sum.getLeft?).map Prod.fst =
      (ready.map (Sum.map Prod.fst id)).filterMap Sum.getLeft?
    rw [List.filterMap_map, List.map_filterMap]
    congr 1
    funext event
    cases event <;> rfl
  · have hListed : chan ∈ ready.filterMap Sum.getRight? := by
      simpa [DispatchLoop.poll, List.mem_filterMap] using hMem
    have hSome := hReady chan hListed
    -- The kernel knows no channel that was destroyed, so it does not report it.
    have hAlive : (d.others chan).alive = true := by
      by_contra hDead
      rw [hInv.destroyed chan (by simpa using hDead)] at hSome
      cases hSome
    refine ⟨hAlive, fun hNew => ?_⟩
    have hNew : (d.others chan).channel.index = .kNew := hNew
    rw [(hInv.registered chan hAlive).interest_eq, hNew] at hSome
    simp at hSome

omit [DecidableEq κ] in
theorem Inv.dispatch (hInv : d.Inv) (hStep : d.dispatch = some d') : d'.Inv := by
  unfold DispatchLoop.dispatch at hStep
  split at hStep
  · next i rest hStack hBatch =>
    obtain ⟨loop, hLoop, rfl⟩ := Option.map_eq_some_iff.mp hStep
    refine ⟨hInv.loop.dispatch hLoop, ?_, hInv.registered, hInv.destroyed,
      fun chan hMem => hInv.waiting chan (by simp [hBatch, show .inr chan ∈ rest from hMem])⟩
    -- The batch of the connections loses the same channel.
    have hActive : d.loop.active = i :: rest.filterMap Sum.getLeft? := by
      rw [hInv.active_eq, hBatch]
      rfl
    simp only [ConnectionLoop.dispatch, hStack, hActive, Option.ite_none_right_eq_some,
      Option.some.injEq] at hLoop
    rw [← hLoop.2]
    rfl
  · next chan rest hStack hBatch =>
    obtain ⟨-, hNext⟩ := Option.ite_none_right_eq_some.mp hStep
    obtain rfl := Option.some.inj hNext
    refine ⟨hInv.loop.push_user, ?_, hInv.registered, hInv.destroyed,
      fun k hMem => hInv.waiting k (by simp [hBatch, show .inr k ∈ rest from hMem])⟩
    show d.loop.active = rest.filterMap Sum.getLeft?
    rw [hInv.active_eq, hBatch]
    rfl
  · cases hStep

theorem step_inv (d : DispatchLoop ι κ) (label : DispatchLabel ι κ) (d' : DispatchLoop ι κ)
    (hInv : d.Inv) (hKeeps : KeepsWaiting d label) (hStep : step d label = some d') : d'.Inv := by
  cases label with
  | poll ready =>
      obtain ⟨hCan, hNext⟩ := Option.ite_none_right_eq_some.mp hStep
      obtain rfl := Option.some.inj hNext
      exact hInv.poll hCan
  | dispatch => exact hInv.dispatch hStep
  | connections label =>
      obtain ⟨hAdmits, hNext⟩ := Option.ite_none_right_eq_some.mp hStep
      obtain ⟨loop, hLoop, rfl⟩ := Option.map_eq_some_iff.mp hNext
      -- The steps of the connections that change their batch are not admitted here.
      have hActive : loop.active = d.loop.active := by
        refine step_active hLoop ?_ ?_
        · rintro ready rfl
          cases hAdmits
        · rintro rfl
          cases hAdmits
      exact ⟨step_dispatchInv d.loop label loop hInv.loop hKeeps hLoop,
        hActive.trans hInv.active_eq, hInv.registered, hInv.destroyed, hInv.waiting⟩
  | update chan events =>
      obtain ⟨hRuns, hNext⟩ := Option.ite_none_right_eq_some.mp hStep
      obtain rfl := Option.some.inj hNext
      rw [userRuns, Bool.and_eq_true] at hRuns
      refine hInv.setChannel (fun _ => ?_) (fun hDead => ?_) fun hMem => ⟨hRuns.2, ?_⟩
      · exact Channel.updateChannel_registered (hInv.registered chan hRuns.2) events
      · exact absurd (hRuns.2.symm.trans hDead) (by simp)
      · exact Channel.updateChannel_index (hInv.waiting chan hMem).2
  | remove chan =>
      obtain ⟨hRuns, hNext⟩ := Option.ite_none_right_eq_some.mp hStep
      obtain rfl := Option.some.inj hNext
      rw [userRuns, Bool.and_eq_true] at hRuns
      refine hInv.setChannel (fun _ => ?_) (fun hDead => ?_) fun hMem => absurd hMem hKeeps
      · exact Channel.removeChannel_registered (hInv.registered chan hRuns.2)
      · exact absurd (hRuns.2.symm.trans hDead) (by simp)
  | destroy chan closesFd =>
      obtain ⟨-, hNext⟩ := Option.ite_none_right_eq_some.mp hStep
      obtain rfl := Option.some.inj hNext
      obtain ⟨hWaits, hGone⟩ := hKeeps
      refine hInv.setChannel nofun (fun _ => ?_) fun hMem => absurd hMem hWaits
      rcases hGone with rfl | hGone
      · rfl
      · simp [hGone]

/-- In a run in which no handler takes away a channel that is waiting in the batch,
`HandleEvent` is called only on channels that are in the poller and whose objects live. -/
theorem dispatchSafe_of_keepsWaiting {callbacks : ι → ConnCallbacks} {highWaterMark : ι → Nat}
    {labels : List (DispatchLabel ι κ)} {d : DispatchLoop ι κ}
    (hMeets : Meets step KeepsWaiting (new callbacks highWaterMark) labels)
    (hRun : exec step (new callbacks highWaterMark) labels = some d) : d.DispatchSafe :=
  (exec_invariant_of_meets Inv step_inv (new_inv callbacks highWaterMark) hMeets hRun).safe

omit [DecidableEq ι] in
instance (chan : κ) (batch : List (ι ⊕ κ)) : Decidable (.inr chan ∈ batch) :=
  decidable_of_iff (chan ∈ batch.filterMap Sum.getRight?) (by simp [List.mem_filterMap])

instance (d : DispatchLoop ι κ) (label : DispatchLabel ι κ) : Decidable (KeepsWaiting d label) :=
  match label with
  | .connections label => inferInstanceAs (Decidable (KeepsConnections d.loop label))
  | .remove chan => inferInstanceAs (Decidable (.inr chan ∉ d.batch))
  | .destroy chan closesFd => inferInstanceAs (Decidable
      (.inr chan ∉ d.batch ∧ (closesFd = true ∨ (d.others chan).channel.interest = none)))
  | .poll _ | .dispatch | .update _ _ => isTrue trivial

/-- Two connections that share the callbacks, and a listening channel. -/
def twoConnections (close : CloseCallback) : DispatchLoop Bool Unit :=
  new (fun _ => ⟨true, true, false, false, close⟩) fun _ => 65536

/-- The library goes on, and its system calls fail. -/
def goOn : DispatchLabel Bool Unit :=
  .connections (.proceed (.error EAGAIN) (.error EAGAIN EAGAIN))

def leave : DispatchLabel Bool Unit := .connections .leave

/-- Both connections and the listening channel become readable together, and the message
callback of the first connection makes some calls. -/
def callsInBatch (establish : Bool → ConnectionLabel Bool)
    (calls : List (DispatchLabel Bool Unit)) : List (DispatchLabel Bool Unit) :=
  [.connections .enter, .connections (establish false), leave, .connections (establish true),
    leave, .update () Channel.kReadEvent, leave,
    .poll [.inl (false, Channel.kReadEvent), .inl (true, Channel.kReadEvent), .inr ()],
    .dispatch, goOn, goOn, .connections (.proceed (.data [1]) (.error EAGAIN EAGAIN))] ++
    calls ++ [leave, goOn]

/-- The connection closes itself. -/
def closesItself : List (DispatchLabel Bool Unit) :=
  callsInBatch .newConnection [.connections (.forceClose false), goOn, leave]

theorem dispatchSafe_closesItself :
    ∃ d, exec step (twoConnections .server) closesItself = some d ∧
      d.loop.stack = [] ∧ d.batch = [.inl true, .inr ()] ∧ d.DispatchSafe := by
  have hRun : (exec step (twoConnections .server) closesItself).map
      (fun d => (d.loop.stack, d.batch)) = some ([], [.inl true, .inr ()]) := by
    decide +kernel
  obtain ⟨d, hRun, hShape⟩ := Option.map_eq_some_iff.mp hRun
  have hMeets : Meets step KeepsWaiting (twoConnections .server) closesItself := by
    decide +kernel
  obtain ⟨hStack, hBatch⟩ := Prod.mk.inj hShape
  exact ⟨d, hRun, hStack, hBatch, dispatchSafe_of_keepsWaiting hMeets hRun⟩

/-- The connection closes the other connection of the server. -/
def closesOther : List (DispatchLabel Bool Unit) :=
  callsInBatch .newConnection [.connections (.forceClose true), goOn, leave]

/-- The connection destroys the other connection, which belongs to user code. -/
def destroysOther : List (DispatchLabel Bool Unit) :=
  callsInBatch .connectEstablished [.connections (.connectDestroyed true), leave, goOn]

/-- Then the message callback of the other connection destroys the acceptor, as `Stop`
does it. -/
def destroysAcceptor : List (DispatchLabel Bool Unit) :=
  closesItself ++
    [.dispatch, goOn, goOn, .connections (.proceed (.data [1]) (.error EAGAIN EAGAIN)),
      .update () Channel.kNoneEvent, .remove (), .destroy () true, leave, goOn]

/-- `Loop()` is about to call `HandleEvent` on a channel that is in no poller. -/
def aboutToMiss (d : DispatchLoop Bool Unit) : Bool :=
  d.loop.stack.isEmpty && match d.batch with
    | .inl i :: _ => !(d.loop.conns i).channel.mapped
    | .inr chan :: _ => !(d.others chan).channel.mapped
    | [] => false

theorem not_dispatchSafe_of_aboutToMiss {d : DispatchLoop Bool Unit}
    (hMiss : d.aboutToMiss = true) : ¬ d.DispatchSafe := by
  intro hSafe
  simp only [aboutToMiss, Bool.and_eq_true, List.isEmpty_iff] at hMiss
  obtain ⟨hStack, hMiss⟩ := hMiss
  cases hBatch : d.batch with
  | nil => simp [hBatch] at hMiss
  | cons waiting rest =>
      have hPresent := hSafe hStack waiting rest hBatch
      cases waiting with
      | inl i => simp [hBatch, hPresent.1] at hMiss
      | inr chan => simp [hBatch, hPresent.1] at hMiss

/-- `Loop()` goes on to call `HandleEvent` on a channel that is in no poller: of a
connection of the server that is destroyed, of a connection of user code, and of a
destroyed acceptor. -/
theorem not_dispatchSafe_closesOther :
    (∃ d, exec step (twoConnections .server) closesOther = some d ∧
      d.loop.alive true = false ∧ ¬ d.DispatchSafe) ∧
    (∃ d, exec step (twoConnections .user) destroysOther = some d ∧ ¬ d.DispatchSafe) ∧
    ∃ d, exec step (twoConnections .server) destroysAcceptor = some d ∧
      (d.others ()).alive = false ∧ ¬ d.DispatchSafe := by
  have hOther : (exec step (twoConnections .server) closesOther).map
      (fun d => (d.aboutToMiss, d.loop.alive true)) = some (true, false) := by
    decide +kernel
  have hUser : (exec step (twoConnections .user) destroysOther).map aboutToMiss = some true := by
    decide +kernel
  have hAcceptor : (exec step (twoConnections .server) destroysAcceptor).map
      (fun d => (d.aboutToMiss, (d.others ()).alive)) = some (true, false) := by
    decide +kernel
  obtain ⟨other, hOtherRun, hOtherMiss⟩ := Option.map_eq_some_iff.mp hOther
  obtain ⟨user, hUserRun, hUserMiss⟩ := Option.map_eq_some_iff.mp hUser
  obtain ⟨acceptor, hAcceptorRun, hAcceptorMiss⟩ := Option.map_eq_some_iff.mp hAcceptor
  obtain ⟨hOtherMiss, hDead⟩ := Prod.mk.inj hOtherMiss
  obtain ⟨hAcceptorMiss, hGone⟩ := Prod.mk.inj hAcceptorMiss
  exact ⟨⟨other, hOtherRun, hDead, not_dispatchSafe_of_aboutToMiss hOtherMiss⟩,
    ⟨user, hUserRun, not_dispatchSafe_of_aboutToMiss hUserMiss⟩,
    acceptor, hAcceptorRun, hGone, not_dispatchSafe_of_aboutToMiss hAcceptorMiss⟩

end DispatchLoop
end SolarNet
