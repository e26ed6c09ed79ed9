import Wisp.SafeQueue

/-! How traffic from the peer links reaches a broker asleep in `poll`. The callbacks of
the links push into one queue, each on its own thread, and ping the broker afterwards
only if the push found the queue empty; the broker clears the pings before it drains. -/
namespace Wisp

open Transition

namespace PeerWake

/-- Where the broker thread is in its loop. -/
inductive Point where
  | polling
  | clearing
  | draining
  | routing
  deriving DecidableEq, Repr

/-- `owes` marks the callbacks that are between such a push and its ping. -/
structure State (T : Type) where
  inbound : SafeQueue.Shared T
  owes : Nat → Bool
  pings : Nat
  point : Point

variable {T : Type}

/-- A started broker, about to poll for the first time. -/
def State.new (maxSize : Nat) : State T := ⟨.new maxSize,fun _ => false,0,.routing⟩

inductive Label (T : Type) where
  | deliver (link : Nat) (env : T)
  | resume (link : Nat)
  | giveUp (link : Nat)
  | ping (link : Nat) (refused : Bool)
  | poll
  | recvPing
  | drain
  | route
  | stop
  deriving DecidableEq, Repr

def announce (owes : Nat → Bool) : SafeQueue.Event T → Nat → Bool
  | .pushed link _ true => Function.update owes link true
  | _ => owes

/-- A critical section of the queue, and the ping its caller owes from then on. -/
def access (label : SafeQueue.Label T) (s : State T) : Outcome (State T) (SafeQueue.Event T) :=
  let done := SafeQueue.step label s.inbound
  ⟨{ s with inbound := done.state, owes := done.events.foldl announce s.owes },done.events⟩

/-- A link's callback runs on the link's thread, so not before its last one returned. -/
def deliver (link : Nat) (env : T) (s : State T) : Outcome (State T) (SafeQueue.Event T) :=
  if s.owes link then ⟨s,[]⟩ else access (.push link env true) s

/-- A send is refused only by a socket that is full of pings. -/
def ping (link : Nat) (refused : Bool) (s : State T) : State T :=
  if s.owes link then
    { s with owes := Function.update s.owes link false
             pings := if refused && decide (0 < s.pings) then s.pings else s.pings + 1 }
  else s

/-- `poll` returns for a ping, for client traffic or after its time, and says whether a
ping is there. -/
def poll (s : State T) : State T :=
  if s.point = .polling then { s with point := if 0 < s.pings then .clearing else .draining } else s

/-- One turn of the loop that receives pings until there are none. -/
def recvPing (s : State T) : State T :=
  if s.point = .clearing then
    if 0 < s.pings then { s with pings := s.pings - 1 } else { s with point := .draining }
  else s

def drain (s : State T) : Outcome (State T) (SafeQueue.Event T) :=
  if s.point = .draining then
    ⟨{ (access .drainTo s).state with point := .routing },(access .drainTo s).events⟩
  else ⟨s,[]⟩

/-- The batch is routed, and the loop comes round to its poll. -/
def route (s : State T) : State T := if s.point = .routing then { s with point := .polling } else s

def step : Label T → State T → Outcome (State T) (SafeQueue.Event T)
  | .deliver link env, s => deliver link env s
  | .resume link, s => access (.wake link) s
  | .giveUp link, s => access (.expire link) s
  | .ping link refused, s => ⟨ping link refused s,[]⟩
  | .poll, s => ⟨poll s,[]⟩
  | .recvPing, s => ⟨recvPing s,[]⟩
  | .drain, s => drain s
  | .route, s => ⟨route s,[]⟩
  | .stop, s => access .stop s

/-- Queued traffic has a ping pending or owed, or a drain ahead of the next poll. -/
def Noticed (s : State T) : Prop :=
  s.inbound.q.queue ≠ [] →
    0 < s.pings ∨ (∃ link, s.owes link = true) ∨ s.point = .clearing ∨ s.point = .draining

variable {s : State T}

theorem announce_keeps (owes : Nat → Bool) (link : Nat) (owed : owes link = true) (event : SafeQueue.Event T) :
    announce owes event link = true := by
  unfold announce
  split
  next other _ =>
    by_cases same : link = other
    · rw [same,Function.update_self]
    · rw [Function.update_of_ne same]
      exact owed
  · exact owed

theorem announced_keeps (events : List (SafeQueue.Event T)) (owes : Nat → Bool) (link : Nat)
    (owed : owes link = true) : events.foldl announce owes link = true := by
  induction events generalizing owes with
  | nil => exact owed
  | cons event rest ih => exact ih _ (announce_keeps owes link owed event)

/-- Whoever fills an empty queue owes a ping. -/
theorem filler_owes {q after : SafeQueue T} {label : SafeQueue.Label T} {events : List (SafeQueue.Event T)}
    (effect : SafeQueue.Effect q label events after) (owes : Nat → Bool) (queued : after.queue ≠ []) :
    q.queue ≠ [] ∨ ∃ link, events.foldl announce owes link = true := by
  cases effect with
  | pushed label link env running room =>
    by_cases empty : q.queue = []
    · refine .inr ⟨link,?_⟩
      rw [empty]
      exact Function.update_self ..
    · exact .inl empty
  | popped label link env rest front =>
    rw [front]
    exact .inl (List.cons_ne_nil env rest)
  | drained => exact (queued rfl).elim
  | waits | refused | exhausted | missed | emptiness | stopped | reopened => exact .inl queued

theorem access_noticed (label : SafeQueue.Label T) (noticed : Noticed s) : Noticed (access label s).state := by
  intro queued
  rcases filler_owes (SafeQueue.step_effect label s.inbound) s.owes queued with before | owing
  · rcases noticed before with pending | ⟨link,owed⟩ | ahead
    · exact .inl pending
    · exact .inr (.inl ⟨link,announced_keeps _ s.owes link owed⟩)
    · exact .inr (.inr ahead)
  · exact .inr (.inl owing)

theorem deliver_noticed (link : Nat) (env : T) (noticed : Noticed s) : Noticed (deliver link env s).state := by
  unfold deliver
  split
  · exact noticed
  · exact access_noticed _ noticed

/-- The ping is pending once its callback has sent it, or was before if the send was refused. -/
theorem ping_noticed (link : Nat) (refused : Bool) (noticed : Noticed s) : Noticed (ping link refused s) := by
  unfold ping
  split
  · intro _
    left
    dsimp only
    split
    next full => exact of_decide_eq_true (Bool.and_eq_true_iff.mp full).2
    · exact Nat.succ_pos _
  · exact noticed

theorem poll_noticed (noticed : Noticed s) : Noticed (poll s) := by
  unfold poll
  split
  · intro _
    right; right
    dsimp only
    split
    · exact .inl rfl
    · exact .inr rfl
  · exact noticed

theorem recvPing_noticed (noticed : Noticed s) : Noticed (recvPing s) := by
  unfold recvPing
  split
  next clearing =>
    split
    · exact fun _ => .inr (.inr (.inl clearing))
    · exact fun _ => .inr (.inr (.inr rfl))
  · exact noticed

theorem drain_noticed (noticed : Noticed s) : Noticed (drain s).state := by
  unfold drain
  split
  · exact fun queued => (queued rfl).elim
  · exact noticed

/-- Outside the stretch from poll to drain only a ping can answer for queued traffic. -/
theorem Noticed.outside (noticed : Noticed s) (queued : s.inbound.q.queue ≠ []) (clear : s.point ≠ .clearing)
    (drained : s.point ≠ .draining) : 0 < s.pings ∨ ∃ link, s.owes link = true := by
  rcases noticed queued with pending | owed | clearing | draining
  · exact .inl pending
  · exact .inr owed
  · exact (clear clearing).elim
  · exact (drained draining).elim

theorem route_noticed (noticed : Noticed s) : Noticed (route s) := by
  unfold route
  split
  next routing =>
    intro queued
    rcases noticed.outside queued (by simp [routing]) (by simp [routing]) with pending | owed
    · exact .inl pending
    · exact .inr (.inl owed)
  · exact noticed

theorem step_noticed (label : Label T) (s : State T) (noticed : Noticed s) : Noticed (step label s).state := by
  cases label with
  | deliver link env => exact deliver_noticed link env noticed
  | resume link => exact access_noticed _ noticed
  | giveUp link => exact access_noticed _ noticed
  | ping link refused => exact ping_noticed link refused noticed
  | poll => exact poll_noticed noticed
  | recvPing => exact recvPing_noticed noticed
  | drain => exact drain_noticed noticed
  | route => exact route_noticed noticed
  | stop => exact access_noticed _ noticed

/-- A broker never sleeps on queued peer traffic unannounced: whatever the callbacks of any
links and the loop have done in any order, a ping is pending or a callback is about to ping. -/
theorem no_lost_wakeup (maxSize : Nat) (schedule : List (Label T)) :
    let s := (run step schedule (State.new maxSize)).state
    s.point = .polling → s.inbound.q.queue ≠ [] → 0 < s.pings ∨ ∃ link, s.owes link = true := by
  intro s polling queued
  have noticed : Noticed s :=
    run_preserves step Noticed (fun s label => step_noticed label s) schedule _ fun queued => (queued rfl).elim
  exact noticed.outside queued (by simp [polling]) (by simp [polling])

/-- Two links deliver to a sleeping broker; the second one does not ping, nor has the first yet. -/
theorem no_lost_wakeup_two_links :
    let s := (run step [.route,.deliver 0 1,.deliver 1 2] (State.new 5)).state
    s.point = .polling ∧ s.inbound.q.queue = [1,2] ∧ (0 < s.pings ∨ ∃ link, s.owes link = true) := by
  refine ⟨rfl,rfl,?_⟩
  exact no_lost_wakeup 5 [.route,.deliver 0 1,.deliver 1 2] rfl (List.cons_ne_nil 1 [2])

end PeerWake

end Wisp
