import Wisp.WorkerOrder

/-! A worker that one thread publishes through: the thread writes data and calls `sync`,
and writes nothing while it waits. As long as the pipe takes every message, nothing goes
missing between the queue and the wire; and a heartbeat asked for while the loop has yet to
look at the queue, or with the queue empty, is sent behind all of it. -/
namespace Wisp

open Transition

namespace Worker

/-- A heartbeat that a call waits for is on its way. -/
def Point.Beating : Point → Prop
  | .beat | .publish => True
  | _ => False

/-- The loop has found the outbound queue empty and does not look at it again before it
has served a request. -/
def Point.Passed : Point → Prop
  | .checkEncoded | .look | .beat | .publish => True
  | _ => False

instance : ∀ point : Point, Decidable point.Passed
  | .checkEncoded | .look | .beat | .publish => isTrue trivial
  | .top | .receive | .online _ | .accept _ | .drainControl | .drainOutbound | .place _ | .release | .gate
  | .drainEncoded | .checkControl | .checkOutbound | .keepAlive | .expire | .offline | .ended => isFalse id

theorem Point.Beating.passed {point : Point} (beating : point.Beating) : point.Passed := by
  cases point <;> trivial

theorem Point.Passed.empty {point : Point} (passed : point.Passed) : point.batch = [] := by
  cases point <;> first | rfl | exact passed.elim

/-- The labels of the loop, the broker and the connection. -/
def Label.Outside : Label → Prop
  | .loop _ _ | .process | .notify _ | .lose _ | .loseReply _ => True
  | _ => False

instance : ∀ label : Label, Decidable label.Outside
  | .loop _ _ | .process | .notify _ | .lose _ | .loseReply _ => isTrue trivial
  | .writeControlMessage _ | .writeMessage _ | .writeEncoded _ | .call | .request | .await _ | .stop | .start =>
    isFalse id

/-- The broker and the connection act on what is in flight only. -/
theorem outside_cases {label : Label} (outside : label.Outside) (w : Worker) :
    (∃ pipe ready, label = .loop pipe ready) ∨
      ∃ flight processed inbound, (step label w).state = { w with flight, processed, inbound } := by
  cases label with
  | loop pipe ready => exact .inl ⟨pipe,ready,rfl⟩
  | process =>
    right
    simp only [step,process]
    split <;> exact ⟨_,_,_,rfl⟩
  | notify reply =>
    right
    simp only [step]
    split <;> exact ⟨_,_,_,rfl⟩
  | lose position | loseReply position => exact .inr ⟨_,_,_,rfl⟩
  | _ => exact outside.elim

theorem outside_frame {label : Label} (outside : label.Outside) (w : Worker) :
    (step label w).state.written = w.written ∧ (step label w).state.caller = w.caller := by
  rcases outside_cases outside w with ⟨pipe,ready,rfl⟩ | ⟨flight,processed,inbound,state⟩
  · have advance := runLoop_advance pipe ready w
    simp only [step]
    generalize w.runLoop pipe ready = w' at advance ⊢
    cases advance with
    | accepts here =>
      unfold accept
      split_ifs <;> exact ⟨rfl,rfl⟩
    | holds here =>
      rw [hold,goto]
      exact ⟨rfl,rfl⟩
    | _ => exact ⟨rfl,rfl⟩
  · rw [state]
    exact ⟨rfl,rfl⟩

/-- What these put on the wire has waited for it. -/
theorem InOrder.outside {w : Worker} (ordered : InOrder w) {label : Label} (outside : label.Outside) :
    ∃ frames, (Worker.step label w).state.wire = w.wire ++ frames ∧
      (carried .outbound frames ++ (Worker.step label w).state.waiting .outbound).Sublist (w.waiting .outbound) := by
  rcases outside_cases outside w with ⟨pipe,ready,rfl⟩ | ⟨flight,processed,inbound,state⟩
  · obtain ⟨lane,frames,shift⟩ := ordered.advance (runLoop_advance pipe ready w)
    exact ⟨frames,shift.wire,shift.shrinks .outbound⟩
  · rw [state]
    exact ⟨[],(List.append_nil _).symm,List.Sublist.refl _⟩

/-- The next section of a call of `sync`, made by the only thread that calls it. -/
def syncSection (expired : Bool) (w : Worker) : Outcome Worker Event :=
  match w.caller with
  | .idle => step .call w
  | .called _ => step .request w
  | .waiting _ | .confirming _ _ => step (.await expired) w

theorem syncSection_step (expired : Bool) (w : Worker) : ∃ label, w.syncSection expired = step label w := by
  unfold syncSection
  split <;> exact ⟨_,rfl⟩

/-- What a section of a call does. -/
inductive Syncs (w : Worker) : Outcome Worker Event → Prop
  | calls (here : w.caller = .idle) : Syncs w ⟨{ w with caller := .called w.written.length },[]⟩
  | requests {promised : Nat} (here : w.caller = .called promised) :
      Syncs w ⟨{ w with syncTarget := 0, syncRequested := true, caller := .waiting promised },[]⟩
  | waits (busy : w.caller ≠ .idle) : Syncs w ⟨w,[]⟩
  | finds {promised : Nat} (here : w.caller = .waiting promised) (published : w.syncTarget ≠ 0) :
      Syncs w ⟨{ w with caller := .confirming promised w.syncTarget },[]⟩
  | confirms {promised target : Nat} (here : w.caller = .confirming promised target) :
      Syncs w ⟨{ w with caller := .idle },[.returned promised target true]⟩
  | fails {promised target : Nat} (w' : Worker) : Syncs w ⟨w',[.returned promised target false]⟩

theorem syncSection_syncs (expired : Bool) (w : Worker) : Syncs w (w.syncSection expired) := by
  unfold syncSection
  split
  next here =>
    simp only [step,here,if_true]
    exact .calls here
  next promised here =>
    simp only [step,requestSync,here]
    split
    · exact .requests here
    · exact .fails _
  next promised here =>
    simp only [step,awaitSync,here]
    split_ifs with published expired
    · exact .finds here published
    · exact .fails _
    · exact .waits (by simp [here])
  next promised target here =>
    simp only [step,awaitSync,here]
    split_ifs with answered expired
    · exact .confirms here
    · exact .fails _
    · exact .waits (by simp [here])

structure Publishing (w : Worker) : Prop where
  idle : w.controlQueue = [] ∧ w.controlBacklog = [] ∧ w.dataBacklog = [] ∧ w.encodedQueue = []
  outbound : ∀ write ∈ w.written, write.lane = .outbound
  unbroken : carried .outbound w.wire ++ w.point.batch ++ w.outboundQueue = w.written
  /-- A request stands only while its call waits for the target. -/
  single : w.syncRequested = true ∨ w.point.Beating → w.syncTarget = 0 ∧ ∃ promised, w.caller = .waiting promised
  lowered : w.point.Beating → w.syncRequested = false
  awaited : ∀ promised, w.caller = .waiting promised → w.point.Passed → w.outboundQueue = []

theorem initial_publishing : Publishing initial where
  idle := ⟨rfl,rfl,rfl,rfl⟩
  outbound := nofun
  unbroken := rfl
  single := by simp [initial,Point.Beating]
  lowered := nofun
  awaited := nofun

section

variable {w w' : Worker} (publishing : Publishing w)

include publishing

theorem Publishing.away (idle : w'.controlQueue = [] ∧ w'.controlBacklog = [] ∧ w'.dataBacklog = [] ∧ w'.encodedQueue = [])
    (written : w'.written = w.written)
    (kept : carried .outbound w'.wire ++ w'.point.batch ++ w'.outboundQueue =
      carried .outbound w.wire ++ w.point.batch ++ w.outboundQueue)
    (call : w'.syncTarget = w.syncTarget ∧ w'.caller = w.caller)
    (lowers : w'.syncRequested = true → w.syncRequested = true) (early : ¬w'.point.Passed) : Publishing w' where
  idle := idle
  outbound := written ▸ publishing.outbound
  unbroken := by rw [kept,written]; exact publishing.unbroken
  single := by
    rintro (requested | beating)
    · rw [call.1,call.2]
      exact publishing.single (.inl (lowers requested))
    · exact absurd beating.passed early
  lowered beating := absurd beating.passed early
  awaited _ _ passed := absurd passed early

theorem Publishing.sent_outbound {batch : List Write} (here : w.point = .place batch) :
    ∀ write ∈ batch, write.lane = .outbound := by
  intro write member
  apply publishing.outbound
  rw [← publishing.unbroken,here]
  exact List.mem_append_left _ (List.mem_append_right _ member)

theorem Publishing.places {pipe : List Bool} (ready : Bool) {batch : List Write} (here : w.point = .place batch)
    (takes : sendBatch pipe batch = batch) : Publishing (w.runLoop pipe ready) := by
  have sent : w.runLoop pipe ready = (w.putBatch pipe batch).goto .release := by
    simp [runLoop,here,place,publishing.idle]
  rw [sent]
  apply publishing.away
  · exact publishing.idle
  · rfl
  · simp [goto,putBatch,put,takes,here,Point.batch,carried_messages (publishing.sent_outbound here)]
  · exact ⟨rfl,rfl⟩
  · exact id
  · exact id

theorem Publishing.looks (pipe : List Bool) (ready : Bool) (here : w.point = .look) :
    Publishing (w.runLoop pipe ready) := by
  simp only [runLoop,here]
  split
  next requested =>
    refine ⟨publishing.idle,publishing.outbound,?_,fun _ => publishing.single (.inl requested),fun _ => rfl,?_⟩
    · simpa [here,Point.batch] using publishing.unbroken
    · intro promised waiting _
      exact publishing.awaited promised waiting (by rw [here]; trivial)
  · exact publishing.away publishing.idle rfl (by simp [goto,here,Point.batch]) ⟨rfl,rfl⟩ id id

theorem Publishing.turns {point : Point} {isOnline syncRequested : Bool}
    (lowers : syncRequested = true → w.syncRequested = true) (empty : w.point.batch = []) (turn : Turn w point)
    (unlooked : w.point ≠ .look) : Publishing { w with point, isOnline, syncRequested } := by
  have kept : carried .outbound w.wire ++ point.batch ++ w.outboundQueue =
      carried .outbound w.wire ++ w.point.batch ++ w.outboundQueue := by rw [turn.empty,empty]
  -- the loop goes on to a queue it has yet to look at, or past one it found empty
  have passes (unbeaten : ¬point.Beating) (clear : ∀ promised, w.caller = .waiting promised → w.outboundQueue = []) :
      Publishing { w with point, isOnline, syncRequested } := by
    refine ⟨publishing.idle,publishing.outbound,?_,?_,fun beating => absurd beating unbeaten,fun promised waiting _ => ?_⟩
    · rw [kept]
      exact publishing.unbroken
    · rintro (requested | beating)
      · exact publishing.single (.inl (lowers requested))
      · exact absurd beating unbeaten
    · exact clear promised waiting
  cases turn with
  | away early none ended =>
    refine publishing.away publishing.idle rfl kept ⟨rfl,rfl⟩ lowers fun passed => early ?_
    cases point <;> trivial
  | control => exact publishing.away publishing.idle rfl kept ⟨rfl,rfl⟩ lowers id
  | outbound here drained => exact passes id fun _ _ => drained
  | encoded here drained =>
    refine passes id fun promised waiting => publishing.awaited promised waiting ?_
    rw [here]
    trivial
  | look here => exact absurd here unlooked

theorem Publishing.drains (limit : Nat) (pipe : List Bool) {point : Point} (batch : w.point.batch = [])
    (empty : point.batch = []) (early : ¬point.Passed) : Publishing ((w.drainControl limit pipe).goto point) := by
  obtain ⟨control,backlog,data,encoded⟩ := publishing.idle
  have nothing : trim limit (w.controlBacklog ++ w.controlQueue) = [] := by simp [control,backlog,trim]
  apply publishing.away
  · exact ⟨rfl,by simp [goto,drainControl,put,nothing],data,encoded⟩
  · rfl
  · simp [goto,drainControl,put,nothing,batch,empty]
  · exact ⟨rfl,rfl⟩
  · exact id
  · exact early

/-- A heartbeat is no message, whether or not the pipe takes it. -/
theorem Publishing.beats (pipe : List Bool) {point : Point}
    (here : w.point = .beat ∧ point = .publish ∨ w.point = .keepAlive ∧ point = .expire) :
    Publishing ((w.sendHeartbeat pipe).goto point) := by
  have silent : carried .outbound ((w.sendHeartbeat pipe).goto point).wire = carried .outbound w.wire := by
    simp only [goto,sendHeartbeat,put,carried_append]
    split <;> simp [carried]
  rcases here with ⟨here,rfl⟩ | ⟨here,rfl⟩
  · have beating : w.point.Beating := by rw [here]; trivial
    refine ⟨publishing.idle,publishing.outbound,?_,fun _ => publishing.single (.inr beating),
      fun _ => publishing.lowered beating,fun promised waiting _ => publishing.awaited promised waiting beating.passed⟩
    rw [silent]
    simpa [goto,sendHeartbeat,put,here,Point.batch] using publishing.unbroken
  · apply publishing.away
    · exact publishing.idle
    · rfl
    · rw [silent]
      simp [goto,sendHeartbeat,put,here,Point.batch]
    · exact ⟨rfl,rfl⟩
    · exact id
    · exact id

theorem Publishing.loops {pipe : List Bool} (ready : Bool)
    (takes : ∀ batch, w.point = .place batch → sendBatch pipe batch = batch) : Publishing (w.runLoop pipe ready) := by
  by_cases placing : ∃ batch, w.point = .place batch
  · obtain ⟨batch,here⟩ := placing
    exact publishing.places ready here (takes batch here)
  by_cases looking : w.point = .look
  · exact publishing.looks pipe ready looking
  obtain ⟨control,backlog,data,encoded⟩ := publishing.idle
  have advance := runLoop_advance pipe ready w
  generalize w.runLoop pipe ready = w' at advance ⊢
  cases advance with
  | turns isOnline syncRequested lowers empty kept turn => exact publishing.turns lowers empty turn looking
  | receives here arrived =>
    refine publishing.away publishing.idle rfl ?_ ⟨rfl,rfl⟩ id ?_
    · split <;> simp [here,Point.batch]
    · split <;> exact id
  | @accepts reply here =>
    unfold accept
    split_ifs <;> exact publishing.away publishing.idle rfl (by simp [goto,here,Point.batch]) ⟨rfl,rfl⟩ id id
  | drains here => exact publishing.drains _ pipe (by rw [here]; rfl) rfl id
  | ends here stopped => exact publishing.drains _ pipe (by rw [here]; rfl) rfl id
  | takes here online =>
    exact publishing.away publishing.idle rfl (by simp [here,Point.batch]) ⟨rfl,rfl⟩ id id
  | @sends batch here | @holds batch here => exact absurd ⟨batch,here⟩ placing
  | releases here =>
    refine publishing.away ⟨control,backlog,rfl,encoded⟩ rfl ?_ ⟨rfl,rfl⟩ id id
    simp [putBatch,put,data,sendBatch,here,Point.batch]
  | forwards here =>
    refine publishing.away ⟨control,backlog,data,rfl⟩ rfl ?_ ⟨rfl,rfl⟩ id id
    simp [putBatch,put,encoded,sendBatch,here,Point.batch]
  | beats here => exact publishing.beats pipe here
  | publishes here =>
    have lowered : w.syncRequested = false := publishing.lowered (by rw [here]; trivial)
    refine ⟨publishing.idle,publishing.outbound,?_,?_,fun beating => beating.elim,fun _ _ passed => passed.elim⟩
    · simpa [here,Point.batch] using publishing.unbroken
    · simp [lowered,Point.Beating]

theorem Publishing.outside {label : Label} (outside : label.Outside)
    (takes : ∀ pipe ready batch, label = .loop pipe ready → w.point = .place batch → sendBatch pipe batch = batch) :
    Publishing (step label w).state := by
  rcases outside_cases outside w with ⟨pipe,ready,rfl⟩ | ⟨flight,processed,inbound,state⟩
  · exact publishing.loops ready fun batch => takes pipe ready batch rfl
  · rw [state]
    exact ⟨publishing.idle,publishing.outbound,publishing.unbroken,publishing.single,publishing.lowered,publishing.awaited⟩

theorem Publishing.writes (unasked : w.caller = .idle) (env : Envelope) : Publishing (w.writeMessage env).state := by
  unfold writeMessage enqueue
  dsimp only
  split
  · refine ⟨publishing.idle,fun write member => ?_,?_,publishing.single,publishing.lowered,fun promised waiting => ?_⟩
    · rcases List.mem_append.mp member with old | new
      · exact publishing.outbound write old
      · rw [List.mem_singleton.mp new]
    · rw [← List.append_assoc,publishing.unbroken]
    · rw [unasked] at waiting
      cases waiting
  · exact publishing

/-- A section of a call that does not fail. -/
theorem Publishing.syncs {events : List Event} (syncs : Syncs w ⟨w',events⟩)
    (asks : ∀ promised, w.caller = .called promised → w.point.Passed → w.outboundQueue = [])
    (succeeds : ∀ promised target, events ≠ [.returned promised target false]) :
    Publishing w' ∧ w'.written = w.written := by
  -- without a call that waits there is no request
  have quiet (other : ∀ promised, w.caller ≠ .waiting promised) : ¬(w.syncRequested = true ∨ w.point.Beating) := by
    intro asked
    obtain ⟨-,promised,waiting⟩ := publishing.single asked
    exact other promised waiting
  cases syncs with
  | calls here | confirms here =>
    exact ⟨⟨publishing.idle,publishing.outbound,publishing.unbroken,
      fun asked => absurd asked (quiet (by simp [here])),publishing.lowered,nofun⟩,rfl⟩
  | requests here =>
    refine ⟨⟨publishing.idle,publishing.outbound,publishing.unbroken,fun _ => ⟨rfl,_,rfl⟩,fun beating => ?_,
      fun _ _ => asks _ here⟩,rfl⟩
    exact absurd (.inr beating) (quiet (by simp [here]))
  | waits => exact ⟨publishing,rfl⟩
  | finds here published =>
    refine ⟨⟨publishing.idle,publishing.outbound,publishing.unbroken,fun asked => ?_,publishing.lowered,nofun⟩,rfl⟩
    exact absurd (publishing.single asked).1 published
  | fails => exact absurd rfl (succeeds _ _)

end

/-- Everything written is on the wire ahead of the heartbeat. -/
def Behind (w : Worker) (target : Nat) : Prop :=
  ∃ front rest, w.wire = front ++ .heartbeat target :: rest ∧ carried .outbound front = w.written

theorem Behind.grows {w w' : Worker} {target : Nat} (behind : Behind w target) {frames : List Frame}
    (wire : w'.wire = w.wire ++ frames) (written : w'.written = w.written) : Behind w' target := by
  obtain ⟨front,rest,split,all⟩ := behind
  exact ⟨front,rest ++ frames,by simp [wire,split],by rw [all,written]⟩

/-- Then nothing waits anywhere. -/
theorem Behind.all_sent {w : Worker} {target : Nat} (behind : Behind w target) (publishing : Publishing w) :
    carried .outbound w.wire = w.written ∧ w.waiting .outbound = [] := by
  obtain ⟨front,rest,wire,all⟩ := behind
  have unbroken := publishing.unbroken
  rw [wire,carried_append,all,List.append_assoc,List.append_assoc,List.append_right_eq_self,List.append_eq_nil_iff,
    List.append_eq_nil_iff] at unbroken
  obtain ⟨none,batch,queue⟩ := unbroken
  constructor
  · rw [wire,carried_append,all,none,List.append_nil]
  · simp [waiting,publishing.idle,batch,queue]

/-- A call of `sync` whose heartbeat is behind everything written. -/
structure Confirming (w : Worker) : Prop where
  beaten : w.point = .publish → ∃ front, w.wire = front ++ [.heartbeat w.heartbeatsSent] ∧
    carried .outbound front = w.written
  targeted : ∀ promised, w.caller = .waiting promised → w.syncTarget ≠ 0 → Behind w w.syncTarget
  confirmed : ∀ promised target, w.caller = .confirming promised target → Behind w target

theorem Publishing.begins {w : Worker} (publishing : Publishing w) (idle : w.caller = .idle) : Confirming w := by
  refine ⟨fun here => ?_,by simp [idle],by simp [idle]⟩
  obtain ⟨-,promised,waiting⟩ := publishing.single (.inr (by rw [here]; trivial))
  rw [idle] at waiting
  cases waiting

/-- The heartbeat of a call that waits is sent behind everything written. -/
theorem Publishing.beats_behind {w : Worker} (publishing : Publishing w) {pipe : List Bool} (taken : pipe.headD true = true)
    (here : w.point = .beat) : Confirming ((w.sendHeartbeat pipe).goto .publish) := by
  have beating : w.point.Beating := by rw [here]; trivial
  obtain ⟨unset,promised,waiting⟩ := publishing.single (.inr beating)
  have queue := publishing.awaited promised waiting beating.passed
  have all := publishing.unbroken
  rw [queue,beating.passed.empty,List.append_nil,List.append_nil] at all
  refine ⟨fun _ => ⟨w.wire,?_,all⟩,fun _ _ published => absurd unset published,fun other target waiting' => ?_⟩
  · simp only [goto,sendHeartbeat,put,taken,if_true]
  · rw [show ((w.sendHeartbeat pipe).goto .publish).caller = w.caller from rfl,waiting] at waiting'
    cases waiting'

section

variable {w w' : Worker} (confirming : Confirming w)

include confirming

theorem Confirming.grows {frames : List Frame} (wire : w'.wire = w.wire ++ frames) (written : w'.written = w.written)
    (call : w'.syncTarget = w.syncTarget ∧ w'.caller = w.caller) (unbeaten : w'.point ≠ .publish) : Confirming w' := by
  refine ⟨fun here => absurd here unbeaten,fun promised waiting published => ?_,fun promised target waiting => ?_⟩
  · rw [call.1] at published ⊢
    rw [call.2] at waiting
    exact (confirming.targeted promised waiting published).grows wire written
  · rw [call.2] at waiting
    exact (confirming.confirmed promised target waiting).grows wire written

theorem Confirming.loops (publishing : Publishing w) {pipe : List Bool} (ready : Bool)
    (taken : w.point = .beat → pipe.headD true = true) : Confirming (w.runLoop pipe ready) := by
  have advance := runLoop_advance pipe ready w
  generalize w.runLoop pipe ready = w' at advance ⊢
  cases advance with
  | @turns point isOnline syncRequested lowers empty kept turn =>
    refine confirming.grows (List.append_nil _).symm rfl ⟨rfl,rfl⟩ ?_
    rintro rfl
    cases turn with
    | away early => exact early trivial
  | receives here =>
    refine confirming.grows (List.append_nil _).symm rfl ⟨rfl,rfl⟩ ?_
    split <;> simp
  | accepts here =>
    unfold accept
    split_ifs <;> exact confirming.grows (List.append_nil _).symm rfl ⟨rfl,rfl⟩ (by simp [goto])
  | drains | ends | sends | forwards | releases => exact confirming.grows rfl rfl ⟨rfl,rfl⟩ (by simp [goto])
  | takes => exact confirming.grows (List.append_nil _).symm rfl ⟨rfl,rfl⟩ (by simp)
  | holds =>
    rw [hold,goto]
    exact confirming.grows (List.append_nil _).symm rfl ⟨rfl,rfl⟩ (by simp)
  | beats here =>
    rcases here with ⟨here,rfl⟩ | ⟨here,rfl⟩
    · exact publishing.beats_behind (taken here) here
    · exact confirming.grows rfl rfl ⟨rfl,rfl⟩ (by simp [goto])
  | publishes here =>
    obtain ⟨front,wire,all⟩ := confirming.beaten here
    exact ⟨by rintro ⟨⟩,fun _ _ _ => ⟨front,[],wire,all⟩,confirming.confirmed⟩

theorem Confirming.outside (publishing : Publishing w) {label : Label} (outside : label.Outside)
    (taken : ∀ pipe ready, label = .loop pipe ready → w.point = .beat → pipe.headD true = true) :
    Confirming (step label w).state := by
  rcases outside_cases outside w with ⟨pipe,ready,rfl⟩ | ⟨flight,processed,inbound,state⟩
  · exact confirming.loops publishing ready (taken pipe ready rfl)
  · rw [state]
    exact ⟨confirming.beaten,confirming.targeted,confirming.confirmed⟩

theorem Confirming.goes (syncs : Syncs w ⟨w',[]⟩) : Confirming w' := by
  cases syncs with
  | calls => exact ⟨confirming.beaten,nofun,nofun⟩
  | requests => exact ⟨confirming.beaten,fun _ _ published => absurd rfl published,nofun⟩
  | waits => exact confirming
  | @finds promised here published =>
    refine ⟨confirming.beaten,nofun,fun other target found => ?_⟩
    cases found
    exact confirming.targeted promised here published

theorem Confirming.returns {promised target : Nat} (syncs : Syncs w ⟨w',[.returned promised target true]⟩) :
    Behind w' target := by
  cases syncs with
  | confirms here => exact confirming.confirmed promised target here

end

end Worker

end Wisp
