/-
What becomes of the home node's messages. Two queues lie between a command
and `lock_task`, and the second is shared with the timer; neither loses,
doubles or reorders a command, and every status request is answered once, to
its sender.
-/
import GateNode.Gate.System
import GateNode.Lock.Duplicates

namespace GateNode.Gate

/-- The messages that arrived. -/
def arrived (es : List Event) : List Message :=
  es.filterMap fun
    | .arrive m => some m
    | _ => none

/-- The message handled in a step. -/
def System.handled (s : System) : Event → List Message
  | .handle => s.messages.head?.toList
  | _ => []

/-- What `lock_task` receives in a step. -/
def System.received (s : System) : Event → List Lock.QueuedCommand
  | .lock e => s.lock.received e
  | _ => []

def handledAlong (d : Lock.LockDriveState) (hold : UInt32) (es : List Event) : List Message :=
  Lts.collect (System.step d) System.handled (.boot hold) es

def receivedAlong (d : Lock.LockDriveState) (hold : UInt32) (es : List Event) : List Lock.QueuedCommand :=
  Lts.collect (System.step d) System.received (.boot hold) es

def answersAlong (d : Lock.LockDriveState) (hold : UInt32) (es : List Event) : List Answer :=
  Lts.collect (System.step d) System.answer (.boot hold) es

/-- The users' among the commands. -/
def userCommands (items : List Lock.QueuedCommand) : List Lock.MotorCommand :=
  (items.filter fun m => m.source = .user).map (·.command)

variable {d : Lock.LockDriveState} {hold : UInt32} {s t : System} {e : Event} {es : List Event}

@[simp] theorem userCommands_append (as bs : List Lock.QueuedCommand) :
    userCommands (as ++ bs) = userCommands as ++ userCommands bs := by
  simp [userCommands]

@[simp] theorem arrived_snoc (es : List Event) (e : Event) : arrived (es ++ [e]) = arrived es ++ arrived [e] :=
  List.filterMap_append

/-- A message that asks for the status asks for no movement. -/
theorem Message.request_of_asks {m : Message} (h : m.asks = true) : m.request = none := by
  rw [asks, decide_eq_true_iff] at h
  rw [request, h]
  rfl

theorem System.Step.messages (h : Step d s e t) : s.handled e ++ t.messages = s.messages ++ arrived [e] := by
  cases h with
  | arrive => rfl
  | command m rest hm | other m rest hm => simp [handled, hm, arrived]
  | lock => simp [handled, moved, arrived]

/-- The event loop is a queue. -/
theorem handled_messages (h : Lts.exec (System.step d) s es = some t) :
    Lts.collect (System.step d) System.handled s es ++ t.messages = s.messages ++ arrived es := by
  refine Lts.exec_history (I := fun es t =>
    Lts.collect (System.step d) System.handled s es ++ t.messages = s.messages ++ arrived es) h (by simp [arrived]) ?_
  intro es t e u ht ih hstep
  rw [Lts.collect_snoc ht, List.append_assoc, (System.step_cases hstep).messages, ← List.append_assoc, ih,
    arrived_snoc, List.append_assoc]

theorem handledAlong_snoc (hs : run d hold es = some s) (e : Event) :
    handledAlong d hold (es ++ [e]) = handledAlong d hold es ++ s.handled e := Lts.collect_snoc hs

/-- What a step of the lock does to the users' commands on its queue. -/
theorem lock_userCommands {l l' : Lock.System} {e : Lock.Event} (h : Lock.System.Step d l e l') :
    userCommands (l.received e) ++ userCommands l'.commandQueue.items =
      userCommands l.commandQueue.items ++ (match e with
        | .userSend r => [r.command]
        | _ => []) := by
  cases h with
  | userSend r q hq => simp [Lock.System.received, hq, userCommands]
  | callbackSend c hc q hq => simp [Lock.System.received, hq, userCommands]
  | taskBegin m q hcalls hq | taskReceive m q hcalls hq =>
    simp only [Lock.System.received, hcalls, hq, if_true, List.head?_cons, Option.toList_some, List.append_nil,
      ← userCommands_append, List.singleton_append]
  | timerExpire | taskAssign | taskCall => simp [Lock.System.received, userCommands]

theorem System.Step.commands (h : Step d s e t) :
    userCommands (s.received e) ++ userCommands t.lock.commandQueue.items =
      userCommands s.lock.commandQueue.items ++ ((s.handled e).filterMap Message.request).map Lock.Request.command := by
  cases h with
  | arrive => simp [received, handled, userCommands]
  | command m rest hm r hr l hl =>
    have hqueue := lock_userCommands (Lock.System.step_cases hl)
    simpa [received, Lock.System.received, handled, hm, hr, userCommands] using hqueue
  | other m rest hm hr => simp [received, handled, hm, hr, userCommands]
  | lock e he l hl =>
    have hqueue := lock_userCommands (Lock.System.step_cases hl)
    cases e with
    | userSend r => exact absurd rfl (he r)
    | timerExpire | callbackSend | taskReceive | taskAssign | taskCall => exact hqueue

theorem received_handled (h : run d hold es = some s) :
    userCommands (receivedAlong d hold es) ++ userCommands s.lock.commandQueue.items =
      ((handledAlong d hold es).filterMap Message.request).map Lock.Request.command := by
  refine Lts.exec_history (I := fun es s =>
    userCommands (receivedAlong d hold es) ++ userCommands s.lock.commandQueue.items =
      ((handledAlong d hold es).filterMap Message.request).map Lock.Request.command) h rfl ?_
  intro es s e t hs ih hstep
  rw [receivedAlong, Lts.collect_snoc hs, userCommands_append, List.append_assoc,
    (System.step_cases hstep).commands, ← List.append_assoc, ← receivedAlong, ih, handledAlong_snoc hs,
    List.filterMap_append, List.map_append]

theorem answers_handled (h : run d hold es = some s) :
    (answersAlong d hold es).map (·.mac) = ((handledAlong d hold es).filter Message.asks).map (·.mac) := by
  refine Lts.exec_history (I := fun es _ => (answersAlong d hold es).map (·.mac) =
    ((handledAlong d hold es).filter Message.asks).map (·.mac)) h rfl ?_
  intro es s e t hs ih hstep
  have hanswer : (s.answer e).map (·.mac) = ((s.handled e).filter Message.asks).map (·.mac) := by
    cases e with
    | handle => simp only [System.answer, System.handled, List.map_map]; rfl
    | arrive | lock => rfl
  rw [answersAlong, Lts.collect_snoc hs, List.map_append, ← answersAlong, ih, hanswer, handledAlong_snoc hs,
    List.filter_append, List.map_append]

/-- **No command is lost, doubled or reordered on its way to `lock_task`, and no status request is left unanswered**:
at every moment what `lock_task` has received from users, what of theirs is on its queue and what the event loop still
holds are together the movements asked for, in order; and the addresses answered and those still waiting are the
addresses that asked, in order. -/
theorem messages_in_order (d : Lock.LockDriveState) (hold : UInt32) (es : List Event) (s : System)
    (hrun : run d hold es = some s) :
    userCommands (receivedAlong d hold es) ++ userCommands s.lock.commandQueue.items ++
        (s.messages.filterMap Message.request).map Lock.Request.command =
      ((arrived es).filterMap Message.request).map Lock.Request.command ∧
    (answersAlong d hold es).map (·.mac) ++ (s.messages.filter Message.asks).map (·.mac) =
      ((arrived es).filter Message.asks).map (·.mac) := by
  have hall : handledAlong d hold es ++ s.messages = arrived es := handled_messages hrun
  constructor
  · rw [received_handled hrun, ← List.map_append, ← List.filterMap_append, hall]
  · rw [answers_handled hrun, ← List.map_append, ← List.filter_append, hall]

/-- A command under way, another on the lock's queue, and two status requests about them. -/
def waitingEvents : List Event :=
  [.arrive ⟨.commandOpenGate, homeNodeMac⟩, .arrive ⟨.commandSendGateStatus, homeNodeMac⟩, .handle, .handle,
    .arrive ⟨.commandCloseGate, homeNodeMac⟩, .lock .taskReceive, .handle,
    .arrive ⟨.commandSendGateStatus, homeNodeMac⟩]

theorem messages_in_order_waiting : ∃ s, run Lock.lockDriveInit 5000 waitingEvents = some s ∧
    userCommands (receivedAlong Lock.lockDriveInit 5000 waitingEvents) ++ userCommands s.lock.commandQueue.items ++
        (s.messages.filterMap Message.request).map Lock.Request.command =
      ((arrived waitingEvents).filterMap Message.request).map Lock.Request.command ∧
    (answersAlong Lock.lockDriveInit 5000 waitingEvents).map (·.mac) ++
        (s.messages.filter Message.asks).map (·.mac) =
      ((arrived waitingEvents).filter Message.asks).map (·.mac) :=
  ⟨_, rfl, messages_in_order Lock.lockDriveInit 5000 waitingEvents _ rfl⟩

end GateNode.Gate
