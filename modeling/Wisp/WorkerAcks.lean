import Mathlib.Data.List.Range
import Wisp.Worker

/-! Heartbeats and their answers. Both are counted, a heartbeat even when the pipe
refused it, so the counts pair up as long as every heartbeat counted reaches the broker
and nobody else writes one. -/
namespace Wisp

open Transition

/-- The numbers of the heartbeats among some frames. -/
def beats (frames : List Frame) : List Nat :=
  frames.filterMap fun
    | .heartbeat number => some number
    | _ => none

@[simp] theorem beats_append (first later : List Frame) : beats (first ++ later) = beats first ++ beats later :=
  List.filterMap_append

@[simp] theorem beats_nil : beats [] = [] := rfl

@[simp] theorem beats_connect (rest : List Frame) : beats (.connect :: rest) = beats rest := rfl

@[simp] theorem beats_heartbeat (number : Nat) (rest : List Frame) :
    beats (.heartbeat number :: rest) = number :: beats rest := rfl

@[simp] theorem beats_message (write : Write) (rest : List Frame) : beats (.message write :: rest) = beats rest := rfl

@[simp] theorem beats_messages (batch : List Write) : beats (batch.map .message) = [] := by
  simp [beats]

theorem mem_beats {frames : List Frame} {number : Nat} : number ∈ beats frames ↔ .heartbeat number ∈ frames := by
  induction frames with
  | nil => simp
  | cons frame rest ih => cases frame <;> simp [ih]

theorem beats_eraseIdx {frames : List Frame} {position : Nat}
    (spared : ∀ number, frames[position]? ≠ some (.heartbeat number)) : beats (frames.eraseIdx position) = beats frames := by
  induction frames generalizing position with
  | nil => rfl
  | cons frame rest ih =>
    cases position with
    | zero =>
      cases frame with
      | heartbeat number => exact (spared number rfl).elim
      | connect => rfl
      | message write => rfl
    | succ position =>
      have same : beats (rest.eraseIdx position) = beats rest := ih fun number => by simpa using spared number
      cases frame <;> simp [same]

namespace Worker

/-- Every heartbeat that is counted gets to the broker, and no other does. -/
def Heard (s : Worker) : Label → Prop
  | .writeControlMessage env | .writeMessage env | .writeEncoded env => env.header.handlerKey ≠ Keys.heartbeat
  | .loop pipe _ => s.point = .beat ∨ s.point = .keepAlive → pipe.headD true = true
  | .lose position => ∀ number ∈ beats s.flight, s.flight[position]? ≠ some (.heartbeat number)
  | _ => True

instance (s : Worker) : ∀ label, Decidable (s.Heard label)
  | .writeControlMessage _ | .writeMessage _ | .writeEncoded _ => inferInstanceAs (Decidable (_ ≠ Keys.heartbeat))
  | .loop _ _ => inferInstanceAs (Decidable (s.point = .beat ∨ s.point = .keepAlive → _))
  | .lose _ => inferInstanceAs (Decidable (∀ number ∈ beats s.flight, _))
  | .process | .notify _ | .loseReply _ | .call | .request | .await _ | .stop | .start => isTrue trivial

structure Paired (s : Worker) : Prop where
  numbered : beats (s.processed ++ s.flight) = List.range' 1 s.heartbeatsSent
  acked : s.acksReceived + (s.inbound ++ s.point.reply).count .ack ≤ (beats s.processed).length
  held : ∀ write ∈ s.places, write.envelope.header.handlerKey ≠ Keys.heartbeat
  flying : ∀ write, .message write ∈ s.flight → write.envelope.header.handlerKey ≠ Keys.heartbeat
  wired : ∀ frame ∈ s.processed ++ s.flight, frame ∈ s.wire

theorem initial_paired : Paired initial := by
  constructor <;> simp [initial,places,Point.batch,Point.reply]

section

variable {s : Worker} (paired : Paired s)

include paired

/-- A step that moves writes among the places and onto the wire. -/
theorem Paired.moves {s' : Worker} (batch : List Write) (moved : ∀ write ∈ batch, write ∈ s.places)
    (wire : s'.wire = s.wire ++ batch.map .message) (flight : s'.flight = s.flight ++ batch.map .message)
    (processed : s'.processed = s.processed) (counts : s'.heartbeatsSent = s.heartbeatsSent)
    (acks : s'.acksReceived + (s'.inbound ++ s'.point.reply).count .ack ≤
      s.acksReceived + (s.inbound ++ s.point.reply).count .ack)
    (held : ∀ write ∈ s'.places, write ∈ s.places) : Paired s' := by
  refine ⟨?_,?_,fun write member => paired.held write (held write member),fun write member => ?_,fun frame member => ?_⟩
  · rw [processed,flight,counts,← List.append_assoc,beats_append,beats_messages,List.append_nil]
    exact paired.numbered
  · rw [processed]
    exact acks.trans paired.acked
  · rw [flight,List.mem_append] at member
    rcases member with old | new
    · exact paired.flying write old
    · exact paired.held write (moved write (mem_messages.mp new))
  · rw [processed,flight,← List.append_assoc,List.mem_append] at member
    rw [wire,List.mem_append]
    exact member.imp_left (paired.wired frame)

/-- The heartbeat is the next in number. -/
theorem Paired.beaten {pipe : List Bool} (taken : pipe.headD true = true) {point : Point}
    (here : s.point = .beat ∧ point = .publish ∨ s.point = .keepAlive ∧ point = .expire) :
    Paired ((s.sendHeartbeat pipe).goto point) := by
  have quiet : s.point.reply = [] ∧ point.reply = [] ∧ s.point.batch = [] ∧ point.batch = [] := by
    rcases here with ⟨here,rfl⟩ | ⟨here,rfl⟩ <;> rw [here] <;> exact ⟨rfl,rfl,rfl,rfl⟩
  have numbered := paired.numbered
  refine ⟨?_,?_,?_,?_,?_⟩ <;> simp only [sendHeartbeat,goto,put,taken,↓reduceIte]
  · rw [← List.append_assoc,beats_append,numbered,beats_heartbeat,beats_nil,List.range'_1_concat,Nat.add_comm 1]
  · rw [quiet.2.1,← quiet.1]
    exact paired.acked
  · intro write member
    refine paired.held write ?_
    simpa [mem_places,quiet] using member
  · intro write member
    simpa using paired.flying write (by simpa using member)
  · intro frame member
    rw [← List.append_assoc,List.mem_append] at member
    exact List.mem_append.mpr (member.imp_left (paired.wired frame))

theorem Paired.drained {pipe : List Bool} {limit : Nat} {point : Point} (quiet : point.reply = [])
    (left : ∀ write ∈ ((s.drainControl limit pipe).goto point).places, write ∈ s.places) :
    Paired ((s.drainControl limit pipe).goto point) := by
  refine paired.moves _ (fun write member => ?_) rfl rfl rfl rfl ?_ left
  · rcases List.mem_append.mp ((trim_sublist _ _).subset (List.mem_of_mem_take member)) with older | newer
    · exact mem_places.mpr (.inr (.inr (.inr (.inl older))))
    · exact mem_places.mpr (.inl newer)
  · simp [drainControl,goto,put,quiet,List.count_append]

/-- A batch that is held somewhere goes out, or what the pipe takes of it. -/
theorem Paired.sent {pipe : List Bool} {batch : List Write} {s' : Worker} (held : ∀ write ∈ batch, write ∈ s.places)
    (left : ∀ write ∈ s'.places, write ∈ s.places) (quiet : s'.point.reply = [])
    (same : s' = { s.putBatch pipe batch with
      outboundQueue := s'.outboundQueue, encodedQueue := s'.encodedQueue, dataBacklog := s'.dataBacklog,
      point := s'.point }) : Paired s' := by
  refine paired.moves (sendBatch pipe batch) (fun write member => held write ((sendBatch_sublist _ _).subset member))
    (by rw [same]; rfl) (by rw [same]; rfl) (by rw [same]; rfl) (by rw [same]; rfl) ?_ left
  rw [quiet,same]
  simp [putBatch,put,List.count_append]

theorem Paired.advance {pipe : List Bool} {s' : Worker} (advance : Advance pipe s s')
    (heard : s.point = .beat ∨ s.point = .keepAlive → pipe.headD true = true) : Paired s' := by
  have left : ∀ write ∈ s'.places, write ∈ s.places := fun _ => advance.places
  cases advance with
  | turns isOnline syncRequested lowers empty kept turn =>
    exact paired.moves [] (by simp) (by simp) (by simp) rfl rfl (by rw [kept]) left
  | receives here arrived =>
    refine paired.moves [] (by simp) (by simp) (by simp) rfl rfl ?_ left
    split <;> simp [arrived,here,Point.reply,List.count_cons]
  | accepts here =>
    unfold accept at left ⊢
    split at left
    next ack =>
      rw [if_pos ack]
      refine paired.moves [] (by simp) (by simp [goto]) (by simp [goto]) rfl rfl ?_ left
      simp [goto,here,ack,Point.reply]
      omega
    next other =>
      rw [if_neg other]
      split at left
      next room =>
        rw [if_pos room]
        exact paired.moves [] (by simp) (by simp [goto]) (by simp [goto]) rfl rfl (by simp [goto,here,Point.reply]) left
      next full =>
        rw [if_neg full]
        exact paired.moves [] (by simp) (by simp [goto]) (by simp [goto]) rfl rfl (by simp [goto,here,Point.reply]) left
  | drains here => exact paired.drained rfl left
  | ends here stopped => exact paired.drained rfl left
  | takes here online =>
    exact paired.moves [] (by simp) (by simp) (by simp) rfl rfl (by simp [here,Point.reply]) left
  | sends here cleared flushed drained =>
    refine paired.sent (fun write member => ?_) left rfl rfl
    exact mem_places.mpr (by simp [here,Point.batch,member])
  | holds here =>
    rw [hold,goto] at left ⊢
    exact paired.moves [] (by simp) (by simp) (by simp) rfl rfl (by simp [here,Point.reply]) left
  | releases here flushed drained =>
    exact paired.sent (fun write member => mem_places.mpr (.inr (.inr (.inr (.inr (.inl member)))))) left rfl rfl
  | forwards here =>
    exact paired.sent (fun write member => mem_places.mpr (.inr (.inr (.inl member)))) left rfl rfl
  | beats here => exact paired.beaten (heard (here.imp And.left And.left)) here
  | publishes here =>
    exact paired.moves [] (by simp) (by simp) (by simp) rfl rfl (by simp [here,Point.reply]) left

theorem Paired.enqueued {lane : Lane} {queue : List Write} {limit : Nat} {env : Envelope}
    {store : List Write → Worker} (plain : env.header.handlerKey ≠ Keys.heartbeat)
    (same : ∀ stored, ∃ hasEncoded controlQueue outboundQueue encodedQueue,
      store stored = { s with hasEncoded, controlQueue, outboundQueue, encodedQueue })
    (stored : ∀ write, write ∈ (store (queue ++ [⟨lane,s.written.length,env⟩])).places →
      write ∈ s.places ∨ write = ⟨lane,s.written.length,env⟩) : Paired (s.enqueue lane queue limit env store).state := by
  unfold enqueue
  dsimp only
  split
  · obtain ⟨hasEncoded,controlQueue,outboundQueue,encodedQueue,shape⟩ := same (queue ++ [⟨lane,s.written.length,env⟩])
    rw [shape] at stored ⊢
    refine ⟨paired.numbered,paired.acked,fun write member => ?_,paired.flying,paired.wired⟩
    rcases stored write member with old | rfl
    · exact paired.held write old
    · exact plain
  · exact paired

theorem Paired.processed : Paired s.process := by
  unfold process
  split
  · exact paired
  next frame rest flight =>
    obtain ⟨numbered,acked,held,flying,wired⟩ := paired
    simp only [flight] at numbered flying wired
    refine ⟨by simpa using numbered,?_,held,fun write member => flying write (List.mem_cons_of_mem _ member),
      by simpa using wired⟩
    cases frame with
    | connect => simpa [Frame.key,show Keys.connect ≠ Keys.heartbeat by decide] using acked
    | heartbeat number =>
      simp only [Frame.key,↓reduceIte,beats_append,beats_heartbeat,beats_nil,List.length_append,List.length_singleton,
        List.count_append] at acked ⊢
      simp
      omega
    | message write => simpa [Frame.key,flying write List.mem_cons_self] using acked

/-- Everything but the queues, the loop and the connection. -/
theorem Paired.same {s' : Worker} (places : s'.places = s.places) (reply : s'.point.reply = s.point.reply)
    (same : s'.processed = s.processed ∧ s'.flight = s.flight ∧ s'.wire = s.wire ∧
      s'.heartbeatsSent = s.heartbeatsSent ∧ s'.acksReceived = s.acksReceived ∧ s'.inbound = s.inbound) : Paired s' := by
  obtain ⟨processed,flight,wire,heartbeats,acks,inbound⟩ := same
  refine ⟨?_,?_,?_,?_,?_⟩
  · rw [processed,flight,heartbeats]; exact paired.numbered
  · rw [acks,inbound,reply,processed]; exact paired.acked
  · rw [places]; exact paired.held
  · rw [flight]; exact paired.flying
  · rw [processed,flight,wire]; exact paired.wired

theorem Paired.step (label : Label) (heard : s.Heard label) : Paired (step label s).state := by
  by_cases syncs : label.Syncs
  · obtain ⟨syncTarget,syncRequested,caller,state,-⟩ := step_syncs s syncs
    rw [state]
    exact paired.same rfl rfl ⟨rfl,rfl,rfl,rfl,rfl,rfl⟩
  cases label with
  | writeControlMessage env =>
    exact paired.enqueued heard (fun stored => ⟨_,stored,_,_,rfl⟩) fun write => mem_places_control.mp
  | writeMessage env =>
    exact paired.enqueued heard (fun stored => ⟨_,_,stored,_,rfl⟩) fun write => mem_places_outbound.mp
  | writeEncoded env =>
    have flagged : Paired { s with hasEncoded := true } := paired.same rfl rfl ⟨rfl,rfl,rfl,rfl,rfl,rfl⟩
    exact flagged.enqueued heard (fun stored => ⟨_,_,_,stored,rfl⟩) fun write => mem_places_encoded.mp
  | loop pipe ready => exact paired.advance (runLoop_advance pipe ready s) heard
  | process => exact paired.processed
  | notify reply =>
    simp only [Worker.step]
    split
    · exact paired
    next other =>
      refine ⟨paired.numbered,?_,paired.held,paired.flying,paired.wired⟩
      have := paired.acked
      simp only [List.count_append,List.count_singleton,beq_iff_eq,other,↓reduceIte] at this ⊢
      omega
  | lose position =>
    have spared : ∀ number, s.flight[position]? ≠ some (.heartbeat number) := fun number found =>
      heard number (mem_beats.mpr (List.mem_of_getElem? found)) found
    have fewer {frame : Frame} (member : frame ∈ s.flight.eraseIdx position) : frame ∈ s.flight :=
      List.mem_of_mem_eraseIdx member
    refine ⟨?_,paired.acked,paired.held,fun write member => paired.flying write (fewer member),fun frame member => ?_⟩
    · simp only [Worker.step,beats_append,beats_eraseIdx spared]
      rw [← beats_append]
      exact paired.numbered
    · exact paired.wired frame (List.mem_append.mpr ((List.mem_append.mp member).imp_right fewer))
  | loseReply position =>
    refine ⟨paired.numbered,?_,paired.held,paired.flying,paired.wired⟩
    have acked := paired.acked
    have fewer := (List.eraseIdx_sublist s.inbound position).count_le .ack
    simp only [Worker.step,List.count_append] at acked ⊢
    omega
  | call | request | await expired => exact absurd trivial syncs
  | stop => exact paired.same rfl rfl ⟨rfl,rfl,rfl,rfl,rfl,rfl⟩
  | start =>
    simp only [Worker.step,restart]
    split
    next ended =>
      obtain ⟨numbered,acked,held,flying,wired⟩ := paired
      refine ⟨?_,?_,?_,?_,?_⟩
      · simpa [put] using numbered
      · simp only [put,Point.reply,List.append_nil,List.count_nil] at acked ⊢
        omega
      · intro write member
        refine held write ?_
        simp only [mem_places,put,ended,Point.batch,List.not_mem_nil,or_false] at member ⊢
        tauto
      · intro write member
        exact flying write (by simpa [put] using member)
      · intro frame member
        simp only [put,← List.append_assoc] at member ⊢
        exact List.mem_append.mpr ((List.mem_append.mp member).imp_left (wired frame))
    · exact paired

/-- The heartbeat of every number up to the count of answers was answered. -/
theorem Paired.answered {number : Nat} (positive : 0 < number) (reached : number ≤ s.acksReceived) :
    .heartbeat number ∈ s.processed := by
  have enough : number ≤ (beats s.processed).length := by
    have := paired.acked
    omega
  have numbered := paired.numbered
  rw [beats_append] at numbered
  obtain ⟨count,-,first,-⟩ := List.range'_eq_append_iff.mp numbered.symm
  rw [first,List.length_range'] at enough
  refine mem_beats.mp ?_
  rw [first,List.mem_range'_1]
  omega

end

/-- In every run whose heartbeats all reach the broker, and in which nobody else writes one,
the count of answers has a number only once the heartbeat of that number was answered. -/
theorem acks_answer_heartbeats (schedule : List Label) (heard : Always step Heard schedule initial) (number : Nat)
    (positive : 0 < number) (reached : number ≤ (run step schedule initial).state.acksReceived) :
    .heartbeat number ∈ (run step schedule initial).state.wire ∧
      .heartbeat number ∈ (run step schedule initial).state.processed := by
  have paired := run_invariant step Paired (fun s label heard paired => paired.step label heard) schedule initial
    heard initial_paired
  have answered := paired.answered positive reached
  exact ⟨paired.wired _ (List.mem_append_left _ answered),answered⟩

/-- From the start to the first heartbeat, with what the pipe says to it; then from there
to the second one and to the count of the first answer. -/
def twoHeartbeats (pipe : List Bool) : List Label :=
  List.replicate 8 (.loop [] false) ++ [.loop pipe true] ++ List.replicate 8 (.loop [] false) ++
    [.loop [] true,.process,.process,.loop [] false,.loop [] false,.loop [] true,.loop [] true,.loop [] true]

theorem acks_answer_heartbeats_twice :
    .heartbeat 1 ∈ (run step (twoHeartbeats []) initial).state.wire ∧
      .heartbeat 1 ∈ (run step (twoHeartbeats []) initial).state.processed :=
  acks_answer_heartbeats (twoHeartbeats []) (by decide +kernel) 1 (by decide) (by decide +kernel)

/-- The pipe refuses the first heartbeat, and the answer to the second is counted as its. -/
theorem ack_of_refused_heartbeat :
    (run step (twoHeartbeats [false]) initial).state.acksReceived = 1 ∧
      .heartbeat 1 ∉ (run step (twoHeartbeats [false]) initial).state.wire := by
  decide +kernel

end Worker

end Wisp
