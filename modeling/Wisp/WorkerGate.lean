import Wisp.WorkerOrder

/-! What a step of the worker lets through, when nothing drops a control message. Such a
message stays queued until it is sent; a message of the outbound lane is taken from its
queue only while the loop is online, and is sent only with no control message waiting. -/
namespace Wisp

open Transition

namespace Worker

/-- What has reached the broker or will, in order. -/
def arrivals (w : Worker) : List Frame := w.processed ++ w.flight

/-- The outbound messages that have left their queue. -/
def taken (w : Worker) : List Write := w.dataBacklog ++ w.point.batch

/-- A step that adds these frames to what arrives. -/
structure Passes (w w' : Worker) (frames : List Frame) : Prop where
  arrives : w'.arrivals = w.arrivals ++ frames
  wired : ∀ frame ∈ w.wire ++ frames, frame ∈ w'.wire
  kept : ∀ control ∈ w.waiting .control, control ∈ w'.waiting .control ∨ .message control ∈ frames
  gated : ∀ write, .message write ∈ frames → write.lane = .outbound → write ∈ w.taken ∧ w.waiting .control = []
  took : ∀ write ∈ w'.taken, write ∈ w.taken ∨ w.isOnline = true ∧ w.point = .drainOutbound

/-- A step that sends nothing and takes nothing. -/
theorem Passes.quiet {w w' : Worker} {frames : List Frame} (silent : ∀ write, .message write ∉ frames)
    (wire : w'.wire = w.wire ++ frames) (arrives : w'.arrivals = w.arrivals ++ frames)
    (kept : ∀ control ∈ w.waiting .control, control ∈ w'.waiting .control)
    (took : ∀ write ∈ w'.taken, write ∈ w.taken) : Passes w w' frames :=
  ⟨arrives,fun _ member => wire ▸ member,fun control waits => .inl (kept control waits),
    fun write member => absurd member (silent write),fun write member => .inl (took write member)⟩

theorem Passes.rests {w w' : Worker} (wire : w'.wire = w.wire) (arrives : w'.arrivals = w.arrivals)
    (kept : ∀ control ∈ w.waiting .control, control ∈ w'.waiting .control)
    (took : ∀ write ∈ w'.taken, write ∈ w.taken) : Passes w w' [] :=
  .quiet (fun _ => List.not_mem_nil) (by rw [wire,List.append_nil]) (by rw [arrives,List.append_nil]) kept took

section

variable {w : Worker} (ordered : InOrder w)

include ordered

theorem InOrder.flushes {pipe : List Bool} {limit : Nat} {point : Point}
    (fits : (w.controlBacklog ++ w.controlQueue).length ≤ limit) (fresh : point.batch = []) :
    ∃ frames, Passes w ((w.drainControl limit pipe).goto point) frames := by
  have whole : trim limit (w.controlBacklog ++ w.controlQueue) = w.controlBacklog ++ w.controlQueue := by
    rw [trim,Nat.sub_eq_zero_of_le fits,List.drop_zero]
  refine ⟨_,by rw [arrivals,arrivals,List.append_assoc]; rfl,fun _ member => member,fun control waits => ?_,
    fun write member outbound => ?_,fun write member => ?_⟩
  · change control ∈ List.drop _ _ ++ [] ∨ _
    rw [List.append_nil,mem_messages,whole]
    have waits : control ∈ w.controlBacklog ++ w.controlQueue := waits
    rw [← List.take_append_drop (flushControl pipe (w.controlBacklog ++ w.controlQueue)) (w.controlBacklog ++ w.controlQueue),
      List.mem_append] at waits
    exact waits.symm
  · have listed := List.mem_of_mem_take (mem_messages.mp member)
    rw [whole] at listed
    rw [@InOrder.lane_waiting w ordered .control write listed] at outbound
    cases outbound
  · rw [taken,goto,fresh,List.append_nil] at member
    exact .inl (List.mem_append_left _ member)

theorem InOrder.loops {pipe : List Bool} {w' : Worker} (advance : Advance pipe w w')
    (fits : w.point = .drainControl → (w.controlBacklog ++ w.controlQueue).length ≤ controlBacklogLimit) :
    ∃ frames, Passes w w' frames := by
  cases advance with
  | turns isOnline syncRequested lowers empty kept turn =>
    refine ⟨[],.rests rfl rfl (fun _ waits => waits) fun write member => ?_⟩
    rw [taken,turn.empty,List.append_nil] at member
    exact List.mem_append_left _ member
  | receives here arrived =>
    refine ⟨[],.rests rfl rfl (fun _ waits => waits) fun write member => ?_⟩
    rw [taken] at member ⊢
    dsimp only at member
    split at member <;> simpa [here,Point.batch] using member
  | accepts here =>
    refine ⟨[],.rests ?_ ?_ ?_ ?_⟩
    all_goals unfold accept; split_ifs <;> simp [goto,arrivals,waiting,taken,here,Point.batch]
  | drains here => exact ordered.flushes (fits here) rfl
  | ends here stopped => exact ordered.flushes le_rfl rfl
  | takes here online =>
    refine ⟨[],by simp [arrivals],by simp,fun _ waits => .inl waits,by simp,fun write member => ?_⟩
    exact .inr ⟨online,here⟩
  | @sends batch here cleared flushed drained =>
    have clear : w.waiting .control = [] := by simp [waiting,flushed,drained]
    refine ⟨_,by rw [arrivals,arrivals,List.append_assoc]; rfl,fun _ member => member,?_,fun write member _ => ?_,?_⟩
    · simp [clear]
    · have sent := (sendBatch_sublist pipe batch).subset (mem_messages.mp member)
      refine ⟨List.mem_append_right _ ?_,clear⟩
      rw [here]
      exact sent
    · intro write member
      rw [taken] at member ⊢
      exact .inl (List.mem_append_left _ (by simpa [goto,putBatch,put,Point.batch] using member))
  | @holds batch here =>
    rw [hold,goto]
    refine ⟨[],.rests (by simp only) (by simp only [arrivals]) ?_ fun write member => ?_⟩
    · simp only [waiting,imp_self,implies_true]
    · rw [taken] at member ⊢
      rw [here]
      exact (trim_sublist _ _).subset (by simpa [Point.batch] using member)
  | releases here flushed drained =>
    have clear : w.waiting .control = [] := by simp [waiting,flushed,drained]
    refine ⟨_,by rw [arrivals,arrivals,List.append_assoc]; rfl,fun _ member => member,?_,fun write member _ => ?_,by simp [taken,Point.batch]⟩
    · simp [clear]
    · exact ⟨List.mem_append_left _ ((sendBatch_sublist pipe _).subset (mem_messages.mp member)),clear⟩
  | forwards here =>
    refine ⟨_,by rw [arrivals,arrivals,List.append_assoc]; rfl,fun _ member => member,fun _ waits => .inl waits,
      fun write member outbound => ?_,fun write member => .inl ?_⟩
    · have listed := (sendBatch_sublist pipe _).subset (mem_messages.mp member)
      rw [@InOrder.lane_waiting w ordered .encoded write listed] at outbound
      cases outbound
    · rw [taken] at member ⊢
      exact List.mem_append_left _ (by simpa [putBatch,put,Point.batch] using member)
  | @beats point here =>
    refine ⟨_,.quiet ?_ rfl (by rw [arrivals,arrivals,List.append_assoc]; rfl) (fun _ waits => waits) ?_⟩
    · split <;> simp
    · intro write member
      have empty : point.batch = [] := by rcases here with ⟨_,rfl⟩ | ⟨_,rfl⟩ <;> rfl
      rw [taken,goto,empty,List.append_nil] at member
      exact List.mem_append_left _ member
  | publishes here =>
    refine ⟨[],.rests rfl rfl (fun _ waits => waits) fun write member => ?_⟩
    rw [taken] at member ⊢
    exact List.mem_append_left _ (by simpa [Point.batch] using member)

/-- No control message is dropped: the backlog holds them all, a restart finds it empty,
and the connection loses other frames only. -/
def Undropped (w : Worker) : Label → Prop
  | .loop _ _ => w.point = .drainControl → (w.controlBacklog ++ w.controlQueue).length ≤ controlBacklogLimit
  | .lose position => ∀ frame ∈ w.flight[position]?, carried .control [frame] = []
  | .start => w.point = .ended → w.controlBacklog = []
  | _ => True

instance (w : Worker) : ∀ label, Decidable (w.Undropped label)
  | .loop _ _ => inferInstanceAs (Decidable (w.point = .drainControl → _))
  | .lose position => inferInstanceAs (Decidable (∀ frame ∈ w.flight[position]?, _))
  | .start => inferInstanceAs (Decidable (w.point = .ended → _))
  | .writeControlMessage _ | .writeMessage _ | .writeEncoded _ | .process | .notify _ | .loseReply _ | .call
  | .request | .await _ | .stop => inferInstanceAs (Decidable True)

theorem InOrder.passes {label : Label} (undropped : w.Undropped label) (connected : ∀ position, label ≠ .lose position) :
    ∃ frames, Passes w (Worker.step label w).state frames := by
  have same {w' : Worker} (wire : w'.wire = w.wire) (arrives : w'.arrivals = w.arrivals)
      (kept : ∀ control ∈ w.waiting .control, control ∈ w'.waiting .control) (took : w'.taken = w.taken) :
      ∃ frames, Passes w w' frames :=
    ⟨[],.rests wire arrives kept fun _ member => took ▸ member⟩
  by_cases syncs : label.Syncs
  · obtain ⟨syncTarget,syncRequested,caller,state,-⟩ := step_syncs w syncs
    rw [state]
    exact same rfl rfl (fun _ waits => waits) rfl
  cases label with
  | writeControlMessage env =>
    simp only [Worker.step,writeControlMessage,enqueue]
    split
    · refine same rfl rfl (fun control waits => ?_) rfl
      rw [waiting,← List.append_assoc]
      exact List.mem_append_left _ waits
    · exact same rfl rfl (fun _ waits => waits) rfl
  | writeMessage env | writeEncoded env =>
    simp only [Worker.step,writeMessage,writeEncoded,enqueue]
    split <;> exact same rfl rfl (fun _ waits => waits) rfl
  | loop pipe ready => exact ordered.loops (runLoop_advance pipe ready w) undropped
  | process =>
    simp only [Worker.step,process]
    split
    · exact same rfl rfl (fun _ waits => waits) rfl
    next frame rest flies => exact same rfl (by simp [arrivals,flies]) (fun _ waits => waits) rfl
  | lose position => exact absurd rfl (connected position)
  | loseReply position | stop => exact same rfl rfl (fun _ waits => waits) rfl
  | notify reply =>
    simp only [Worker.step]
    split <;> exact same rfl rfl (fun _ waits => waits) rfl
  | call | request | await expired => exact absurd trivial syncs
  | start =>
    simp only [Worker.step,restart]
    split
    next ended =>
      refine ⟨[.connect],.quiet (by simp) rfl (by simp [arrivals,put]) (fun control waits => ?_) (by simp [taken,Point.batch])⟩
      simpa [waiting,put,undropped ended] using waits
    · exact same rfl rfl (fun _ waits => waits) rfl

end

/-- Some frames are gone, and no control message among them. -/
structure Thinned (old new : List Frame) : Prop where
  subset : ∀ frame ∈ new, frame ∈ old
  kept : ∀ write, write.lane = .control → .message write ∈ old → .message write ∈ new
  split : ∀ front frame rest, new = front ++ frame :: rest → ∃ before after, old = before ++ frame :: after ∧
    ∀ write, write.lane = .control → .message write ∈ before → .message write ∈ front

theorem Thinned.refl (frames : List Frame) : Thinned frames frames :=
  ⟨fun _ member => member,fun _ _ member => member,fun front _ rest split => ⟨front,rest,split,fun _ _ member => member⟩⟩

theorem Thinned.remove {lost : Frame} (data : carried .control [lost] = []) (front rest : List Frame) :
    Thinned (front ++ lost :: rest) (front ++ rest) := by
  have other {write : Write} (control : write.lane = .control) : .message write ≠ lost := by
    rintro rfl
    simp [carried,control] at data
  refine ⟨fun frame member => ?_,fun write control member => ?_,fun before frame after split => ?_⟩
  · simp only [List.mem_append,List.mem_cons] at member ⊢
    exact member.imp_right .inr
  · simp only [List.mem_append,List.mem_cons] at member ⊢
    exact member.imp_right fun later => later.resolve_left (other control)
  · rcases List.append_eq_append_iff.mp split with ⟨part,rfl,rfl⟩ | ⟨part,rfl,tail⟩
    · refine ⟨front ++ lost :: part,after,by simp,fun write control member => ?_⟩
      simp only [List.mem_append,List.mem_cons] at member ⊢
      exact member.imp_right fun later => later.resolve_left (other control)
    · cases part with
      | nil =>
        rw [List.nil_append] at tail
        refine ⟨before ++ [lost],after,by simp [tail],fun write control member => ?_⟩
        simp only [List.mem_append,List.mem_singleton] at member
        exact member.resolve_right (other control)
      | cons first more =>
        obtain ⟨rfl,rfl⟩ := List.cons.inj tail
        exact ⟨before,more ++ lost :: rest,by simp,fun _ _ member => member⟩

theorem lose_thinned {w : Worker} {position : Nat} (undropped : w.Undropped (.lose position)) :
    Thinned w.arrivals (step (.lose position) w).state.arrivals := by
  by_cases short : position < w.flight.length
  · have data := undropped w.flight[position] (List.getElem?_eq_getElem short)
    have thinned := Thinned.remove data (w.processed ++ w.flight.take position) (w.flight.drop (position + 1))
    rw [List.append_assoc,List.getElem_cons_drop,List.take_append_drop,List.append_assoc,
      ← List.eraseIdx_eq_take_drop_succ] at thinned
    exact thinned
  · have same : w.flight.eraseIdx position = w.flight := List.eraseIdx_of_length_le (Nat.le_of_not_lt short)
    simp only [step,arrivals,same]
    exact .refl _

/-- The loop is online only as the status was last reported, or is about to report it. -/
def Reported (connected : Bool) (w : Worker) : Prop :=
  (w.isOnline = true → connected = true ∨ ∃ reply, w.point = .online reply) ∧ (w.point = .offline → w.isOnline = false)

theorem Reported.same {connected : Bool} {w w' : Worker} (reported : Reported connected w)
    (isOnline : w'.isOnline = w.isOnline) (point : w'.point = w.point) : Reported connected w' := by
  rw [Reported,isOnline,point]
  exact reported

theorem Reported.loops {connected : Bool} {w : Worker} (reported : Reported connected w) (pipe : List Bool) (ready : Bool)
    (elsewhere : (∀ reply, w.point ≠ .online reply) ∧ w.point ≠ .offline) :
    Reported connected (w.runLoop pipe ready) := by
  have online : w.isOnline = true → connected = true := fun online =>
    (reported.1 online).resolve_right (not_exists.mpr elsewhere.1)
  have moved {w' : Worker} (same : w'.isOnline = w.isOnline) (away : w'.point ≠ .offline) : Reported connected w' :=
    ⟨fun on => .inl (online (same ▸ on)),fun here => absurd here away⟩
  unfold runLoop
  -- most steps change neither the flag nor come near the report
  split <;> try first
    | exact moved rfl (by rintro ⟨⟩)
    | split <;> exact moved rfl (by rintro ⟨⟩)
  next here =>
    split
    · exact moved rfl (by rintro ⟨⟩)
    next reply rest arrived =>
      split
      · by_cases before : w.isOnline = true
        · refine ⟨fun _ => .inl (online before),fun here => ?_⟩
          simp [before] at here
        · refine ⟨fun _ => .inr ⟨reply,by simp [before]⟩,fun here => ?_⟩
          simp [before] at here
      · exact moved rfl (by rintro ⟨⟩)
  next reply here =>
    refine moved ?_ (by rintro ⟨⟩)
    unfold accept
    split_ifs <;> rfl
  next batch here =>
    refine moved ?_ (by rintro ⟨⟩)
    rw [place]
    split
    · rfl
    · rw [hold,goto]
  next here =>
    split
    · exact ⟨by rintro ⟨⟩,fun _ => rfl⟩
    · exact moved rfl (by rintro ⟨⟩)
  next here => exact reported

theorem Reported.up {w : Worker} {reply : Reply} (here : w.point = .online reply) (pipe : List Bool) (ready : Bool) :
    Reported true (w.runLoop pipe ready) := by
  simp [Reported,runLoop,here,goto]

theorem Reported.down {connected : Bool} {w : Worker} (reported : Reported connected w) (here : w.point = .offline)
    (pipe : List Bool) (ready : Bool) : Reported connected (w.runLoop pipe ready) := by
  simp [Reported,runLoop,here,goto,reported.2 here]

theorem Reported.steps {connected : Bool} {w : Worker} (reported : Reported connected w) {label : Label}
    (outside : ∀ pipe ready, label ≠ .loop pipe ready) : Reported connected (step label w).state := by
  by_cases syncs : label.Syncs
  · obtain ⟨syncTarget,syncRequested,caller,state,-⟩ := step_syncs w syncs
    rw [state]
    exact reported.same rfl rfl
  cases label with
  | writeControlMessage env | writeMessage env | writeEncoded env =>
    simp only [step,writeControlMessage,writeMessage,writeEncoded,enqueue]
    split <;> exact reported.same rfl rfl
  | loop pipe ready => exact absurd rfl (outside pipe ready)
  | process =>
    simp only [step,process]
    split <;> exact reported.same rfl rfl
  | lose position | loseReply position | stop => exact reported.same rfl rfl
  | notify reply =>
    simp only [step]
    split <;> exact reported.same rfl rfl
  | call | request | await expired => exact absurd trivial syncs
  | start =>
    simp only [step,restart]
    split
    · exact ⟨by rintro ⟨⟩,fun _ => rfl⟩
    · exact reported

end Worker

end Wisp
