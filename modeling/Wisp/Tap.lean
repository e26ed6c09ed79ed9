import Wisp.LoopLedger

/-! The inspector's tap. It shows every message once, before anyone gets it, and does not
show the echoes that come back through the mesh. -/
namespace Wisp

open Transition

namespace Output

def tapped : Output → Option Envelope
  | .tap env => some env
  | _ => none

/-- The message that a copy is of, unless it is the answer to a control message. -/
def passed : Output → Option Envelope
  | .send _ env _ => if Keys.isReservedKey env.header.handlerKey then none else some env
  | .flood _ env _ => some env
  | _ => none

/-- An answer to a control message, or a link that is stopped. -/
def isAnswer : Output → Bool
  | .send _ env _ => Keys.isReservedKey env.header.handlerKey
  | .closed _ => true
  | _ => false

variable {output : Output}

theorem answer_quiet (answer : output.isAnswer = true) : output.tapped = none ∧ output.passed = none := by
  cases output with
  | send identity env accepted =>
    have reserved : Keys.isReservedKey env.header.handlerKey = true := answer
    exact ⟨rfl,by simp [passed,reserved]⟩
  | closed link => exact ⟨rfl,rfl⟩
  | _ => cases answer

end Output

namespace Broker

theorem greet_answers (key senderId : Str) (m : Moment) (b : Broker) :
    ∀ output ∈ b.greet key senderId m, output.isAnswer = true := by
  intro output member
  unfold greet at member
  split at member
  · rw [List.mem_singleton.mp member]
    rfl
  · cases member

theorem handleClientMessage_answers (env : Envelope) (senderId : Str) (m : Moment) (b : Broker) :
    ∀ output ∈ (b.handleClientMessage env senderId m).1.events, output.isAnswer = true := by
  have greeting := greet_answers env.header.handlerKey senderId m b
  intro output member
  unfold handleClientMessage at member
  dsimp only at member
  split_ifs at member
  · cases member
  · exact greeting output member
  · rcases List.mem_append.mp member with greeted | acked
    · exact greeting output greeted
    · rw [List.mem_singleton.mp acked]
      rfl
  · exact greeting output member
  · exact greeting output member
  · rcases List.mem_append.mp member with greeted | swapped
    · exact greeting output greeted
    · rcases handleSetCluster_outputs swapped with ⟨identity,rfl⟩ | ⟨link,-,brokerId,rfl⟩ <;> rfl
  · exact greeting output member

/-- The message has been here before. -/
def echo (env : Envelope) (m : Moment) (b : Broker) : Bool :=
  !Keys.isReservedKey env.header.handlerKey && (b.seen.isDuplicate (b.stamp env m).header.messageUuid).2

/-- The tap shows these, and every copy of a message follows it there. -/
structure Tapped (shows : List Envelope) (events : List Output) : Prop where
  tapped : events.filterMap Output.tapped = shows
  shown : Shown Output.tapped Output.passed none events

/-- A message on the tap, and what is sent before the next one. -/
theorem tapped_cons {env : Envelope} {events : List Output}
    (copies : ∀ output ∈ events, output.isAnswer = true ∨ output.tapped = none ∧ output.passed = some env) :
    Tapped [env] (.tap env :: events) := by
  have untapped (output : Output) (member : output ∈ events) : output.tapped = none := by
    rcases copies output member with answer | copy
    · exact (Output.answer_quiet answer).1
    · exact copy.1
  refine ⟨congrArg (env :: ·) (List.filterMap_eq_nil_iff.mpr untapped),?_,shown_of_forall fun output member => ?_⟩
  · rintro x ⟨⟩
  · refine ⟨untapped output member,fun x passes => ?_⟩
    rcases copies output member with answer | copy
    · rw [(Output.answer_quiet answer).2] at passes
      cases passes
    · rw [copy.2] at passes
      exact passes

theorem Tapped.checked {shows : List Envelope} {events : List Output} (tapped : Tapped shows events) (id : MessageId)
    (duplicate : Bool) : Tapped shows (.checked id duplicate :: events) := by
  refine ⟨tapped.tapped,?_,tapped.shown⟩
  rintro x ⟨⟩

/-- A message is shown as it is passed on, stamped, unless it is an echo. -/
theorem processMessage_tapped (env : Envelope) (senderId : Str) (isFromPeer : Bool) (m : Moment) (b : Broker) :
    Tapped (if b.echo env m then [] else [b.stamp env m]) (b.processMessage env senderId isFromPeer m).events := by
  unfold echo
  cases reserved : Keys.isReservedKey env.header.handlerKey with
  | true =>
    cases isFromPeer with
    | true =>
      rw [processMessage_peer_reserved env senderId m b reserved]
      exact tapped_cons (List.forall_mem_nil _)
    | false =>
      rw [processMessage_reserved env senderId m b reserved]
      exact tapped_cons fun output member => .inl (handleClientMessage_answers _ senderId m _ output member)
  | false =>
    cases repeated : (b.seen.isDuplicate (b.stamp env m).header.messageUuid).2 with
    | true =>
      rw [processMessage_duplicate env senderId isFromPeer m b reserved repeated]
      have nothing : Tapped [] [] := ⟨rfl,trivial⟩
      exact nothing.checked _ _
    | false =>
      rw [processMessage_routed env senderId isFromPeer m b reserved repeated]
      refine (tapped_cons fun output member => ?_).checked _ _
      rcases List.mem_append.mp member with sent | flooded
      · rcases List.mem_append.mp sent with greeted | delivered
        · left
          cases isFromPeer with
          | true => cases greeted
          | false => exact greet_answers _ _ _ _ output greeted
        · right
          obtain ⟨identity,-,rfl⟩ := List.mem_map.mp delivered
          exact ⟨rfl,by simp [Moment.sendTo,Output.passed,reserved]⟩
      · right
        obtain ⟨link,-,rfl⟩ := List.mem_map.mp flooded
        exact ⟨rfl,rfl⟩

theorem broadcastStats_tapped (pack : SystemStats → Str) (rates : Rates) (m : Moment) (b : Broker) :
    (b.broadcastStats pack rates m).events.filterMap Output.tapped = [b.statsMessage pack rates] := by
  refine congrArg (b.statsMessage pack rates :: ·) (List.filterMap_eq_nil_iff.mpr fun output member => ?_)
  obtain ⟨identity,-,rfl⟩ := List.mem_map.mp member
  rfl

end Broker

namespace BrokerLoop

namespace Event

def tapped : Event → Option Envelope
  | .output sent | .broadcast sent => sent.tapped
  | _ => none

/-- The message that a copy is of; in a report all of them are copies. -/
def passed : Event → Option Envelope
  | .output sent => sent.passed
  | .broadcast (.send _ env _) => some env
  | _ => none

end Event

/-- What the tap has to show of a service: the message as it is passed on, unless it is an echo,
and every report. -/
def Service.shows (config : Config) (b : Broker) : Service → List Envelope
  | .group taken m =>
    match readRouterGroup config.codec taken.1 with
    | none => []
    | some (_,env) => if b.echo env m then [] else [b.stamp env m]
  | .peer env m => if b.echo env m then [] else [b.stamp env m]
  | .report rates _ => [b.statsMessage config.pack rates]
  | _ => []

def showsAll (config : Config) : List Service → Broker → List Envelope
  | [],_ => []
  | service :: rest,b => service.shows config b ++ showsAll config rest (serve config service b).state

theorem closing_untapped {outputs : List Output} (closed : ∀ output ∈ outputs, ∃ link, output = .closed link) :
    outputs.filterMap Output.tapped = [] := by
  refine List.filterMap_eq_nil_iff.mpr fun output member => ?_
  obtain ⟨link,rfl⟩ := closed output member
  rfl

theorem serve_tapped (config : Config) (service : Service) (b : Broker) :
    (serve config service b).events.filterMap Output.tapped = service.shows config b := by
  have closes (keys : List Str) (b : Broker) : (b.removePeers keys).events.filterMap Output.tapped = [] := by
    refine closing_untapped fun output member => ?_
    obtain ⟨link,-,rfl⟩ := Broker.removePeers_closes keys b output member
    exact ⟨_,rfl⟩
  cases service with
  | group group m =>
    rw [serve,Service.shows]
    cases readRouterGroup config.codec group.1 with
    | none => rfl
    | some message => exact (b.processMessage_tapped message.2 message.1 false m).tapped
  | peer env m => exact (b.processMessage_tapped env (str "PEER") true m).tapped
  | hangup key => exact closes [key] b
  | expire now =>
    rw [serve]
    unfold Broker.sweep
    split
    · rfl
    · exact closes _ _
  | report rates m => exact b.broadcastStats_tapped config.pack rates m
  | _ => rfl

theorem run_tapped (config : Config) (services : List Service) (b : Broker) :
    (run (serve config) services b).events.filterMap Output.tapped = showsAll config services b := by
  induction services generalizing b with
  | nil => rfl
  | cons service rest ih => rw [run,List.filterMap_append,serve_tapped,ih,showsAll]

theorem outputs_tapped (events : List Event) :
    events.filterMap Event.tapped = (events.flatMap Event.outputs).filterMap Output.tapped := by
  induction events with
  | nil => rfl
  | cons event rest ih =>
    rw [List.flatMap_cons,List.filterMap_append,← ih]
    cases event with
    | output sent | broadcast sent => cases sent <;> rfl
    | _ => rfl

/-- Events the tap has nothing to do with. -/
theorem shown_quiet {events : List Event} (quiet : ∀ event ∈ events, event.tapped = none ∧ event.passed = none) :
    Shown Event.tapped Event.passed none events := by
  refine shown_of_forall fun event member => ⟨(quiet event member).1,fun x passes => ?_⟩
  rw [(quiet event member).2] at passes
  cases passes

theorem stats_shown (config : Config) (now : Nat) (m : Moment) (s : BrokerLoop) :
    Shown Event.tapped Event.passed none (stats config now m s).events := by
  unfold stats
  split
  · dsimp only [Broker.broadcastStats]
    set report := s.broker.statsMessage config.pack _ with same
    have copies (event : Event)
        (member : event ∈ (s.broker.statsRecipients.map fun clientId => m.sendTo clientId report).map Event.broadcast) :
        event.tapped = none ∧ event.passed = some report := by
      obtain ⟨output,sent,rfl⟩ := List.mem_map.mp member
      obtain ⟨identity,-,rfl⟩ := List.mem_map.mp sent
      exact ⟨rfl,rfl⟩
    refine ⟨by rintro x ⟨⟩,by rintro x ⟨⟩,shown_of_forall fun event member => ⟨(copies event member).1,fun x passes => ?_⟩⟩
    rw [(copies event member).2] at passes
    exact passes
  · trivial

theorem Deed.shown {config : Config} {s : BrokerLoop} {done : Outcome BrokerLoop Event} (deed : Deed config s done) :
    Shown Event.tapped Event.passed none done.events := by
  have processed {first : Event} {noted : List Event} {shows : List Envelope} {outputs : List Output}
      (tapped : Broker.Tapped shows outputs) (silent : ∀ event ∈ first :: noted, event.tapped = none ∧ event.passed = none) :
      Shown Event.tapped Event.passed none (first :: noted ++ outputs.map .output) :=
    (shown_quiet silent).append (.map tapped.shown)
  cases deed with
  | aside same closed =>
    refine shown_quiet fun event member => ?_
    obtain ⟨output,listed,rfl⟩ := List.mem_map.mp member
    obtain ⟨link,rfl⟩ := closed output listed
    exact ⟨rfl,rfl⟩
  | malformed now same =>
    unfold noteMalformed
    split
    · refine shown_quiet fun event member => ?_
      rcases List.mem_pair.mp member with rfl | rfl <;> exact ⟨rfl,rfl⟩
    · exact shown_quiet (List.forall_mem_singleton.mpr ⟨rfl,rfl⟩)
  | @client s' identity env bytes m same =>
    refine processed (s'.broker.processMessage_tapped env identity false m) (List.forall_mem_cons.mpr ⟨⟨rfl,rfl⟩,?_⟩)
    intro event member
    split at member
    · rw [List.mem_singleton.mp member]
      exact ⟨rfl,rfl⟩
    · cases member
  | @peer s' env bytes m same =>
    exact processed (s'.broker.processMessage_tapped env (str "PEER") true m) (List.forall_mem_singleton.mpr ⟨rfl,rfl⟩)
  | timers order m same walks =>
    refine .append ?_ (stats_shown config s.clock m _)
    unfold cleanup
    split
    · refine shown_quiet fun event member => ?_
      rcases List.mem_cons.mp member with rfl | swept
      · exact ⟨rfl,rfl⟩
      · obtain ⟨clientId,-,rfl⟩ := List.mem_map.mp swept
        exact ⟨rfl,rfl⟩
    · trivial

/-- Over every run of the loop, what the tap shows is each message that is processed, as it is
passed on and in that order, the echoes apart, and each report; and each copy that is sent to a
subscriber, a peer or as a report was the last thing on the tap when it was sent. -/
theorem tap_shows_everything (config : Config) (b : Broker) (now : Nat) (schedule : List Label) :
    let s := start b config now
    let done := run (step config) schedule s
    (∃ services left, Replays config s [] schedule done services left ∧
      done.events.filterMap Event.tapped = showsAll config services b) ∧
    ∀ before event after env, done.events = before ++ event :: after → event.passed = some env →
      ∃ earlier showing later, before = earlier ++ showing :: later ∧ showing.tapped = some env ∧
        ∀ other ∈ later, other.tapped = none := by
  intro s done
  constructor
  · obtain ⟨services,left,served⟩ := run_serves config schedule s [] rfl
    have taps := run_tapped config services b
    have same : run (serve config) services b = ⟨done.state.broker,done.events.flatMap Event.outputs⟩ := served.broker
    rw [same] at taps
    refine ⟨services,left,served.toReplays,Eq.trans ?_ taps⟩
    exact outputs_tapped done.events
  · have shown : Shown Event.tapped Event.passed none done.events :=
      run_reports (step config) (fun _ trace => Shown Event.tapped Event.passed none trace)
        (fun s _ label before => before.append (step_deed config label s).shown) schedule s trivial
    intro before event after env here passes
    rw [here] at shown
    rcases shown.split passes with found | ⟨never,-⟩
    · exact found
    · cases never

end BrokerLoop

end Wisp
