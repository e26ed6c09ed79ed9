import Wisp.Pace
import Wisp.Transition

/-! How the connection worker tells a live broker from a dead one. It sends heartbeats at an
interval, takes whatever comes in as a sign of life, and goes offline when nothing has come in
for too long. The clock runs between any two steps of its loop; times are in milliseconds. -/
namespace Wisp

open Transition Pace

namespace KeepAlive

/-- The two fields of `ConnectionConfig`. -/
structure Config where
  keepAliveTime : Int := 3000
  keepAliveTimeout : Int := 10000

def Config.heartbeatInterval (config : Config) : Nat :=
  if config.keepAliveTime > 0 then config.keepAliveTime.toNat else 3000

def Config.serverTimeout (config : Config) : Nat :=
  let serverTimeout := if config.keepAliveTimeout > 0 then config.keepAliveTimeout.toNat else 10000
  if serverTimeout ≤ config.heartbeatInterval then config.heartbeatInterval * 3 else serverTimeout

/-- Whatever was configured, a heartbeat falls into the time a broker may be silent. -/
theorem Config.interval_lt_timeout (config : Config) : config.heartbeatInterval < config.serverTimeout := by
  have positive : 0 < config.heartbeatInterval := by
    unfold heartbeatInterval
    split <;> omega
  unfold serverTimeout
  dsimp only
  split <;> split <;> omega

/-- Where the loop stands; `now` is what it read off the clock. -/
inductive Point where
  | top
  | receive
  | sync
  | stamp
  | look
  | beat (now : Nat)
  | expire (now : Nat)
  | offline
  | ended
  deriving DecidableEq, Repr

inductive Label where
  | pass (ms : Nat)
  | stop
  /-- A call of the library throws. -/
  | fail
  /-- Whether something came in, or whether a `sync` is waiting with all queues empty. -/
  | loop (ready : Bool)
  deriving DecidableEq, Repr

end KeepAlive

structure KeepAlive where
  clock : Nat
  running : Bool := true
  point : KeepAlive.Point := .offline
  lastHeartbeat : Int
  lastRxTime : Nat
  isOnline : Bool := false
  started : Nat
  turned : Nat
  /-- When a heartbeat was sent, whether or not the pipe took it. -/
  heartbeats : List Nat := []
  /-- When something came in. -/
  received : List Nat := []
  failed : Bool := false
  deriving DecidableEq, Repr

namespace KeepAlive

/-- What the status callback is told; it is told first that the worker is offline. -/
abbrev Status := Bool

def start (config : Config) (clock : Nat) : KeepAlive where
  clock := clock
  lastHeartbeat := clock - config.heartbeatInterval
  lastRxTime := clock
  started := clock
  turned := clock

def loop (config : Config) (ready : Bool) (s : KeepAlive) : Outcome KeepAlive Status :=
  match s.point with
  | .top => if s.running then ⟨{ s with turned := s.clock, point := .receive },[]⟩ else ⟨{ s with point := .ended },[]⟩
  | .receive =>
    if ready then
      ⟨{ s with
          lastRxTime := s.clock
          received := s.received ++ [s.clock]
          isOnline := true
          point := .sync },if s.isOnline then [] else [true]⟩
    else ⟨{ s with point := .sync },[]⟩
  | .sync =>
    if s.isOnline && ready then ⟨{ s with heartbeats := s.heartbeats ++ [s.clock], point := .stamp },[]⟩
    else ⟨{ s with point := .look },[]⟩
  | .stamp => ⟨{ s with lastHeartbeat := s.clock, point := .look },[]⟩
  | .look =>
    if s.clock - s.lastHeartbeat > config.heartbeatInterval then ⟨{ s with point := .beat s.clock },[]⟩
    else ⟨{ s with point := .expire s.clock },[]⟩
  | .beat now => ⟨{ s with heartbeats := s.heartbeats ++ [s.clock], lastHeartbeat := now, point := .expire now },[]⟩
  | .expire now =>
    if s.isOnline && now - s.lastRxTime > config.serverTimeout then ⟨{ s with isOnline := false, point := .offline },[]⟩
    else ⟨{ s with point := .top },[]⟩
  | .offline => ⟨{ s with point := .top },[false]⟩
  | .ended => ⟨s,[]⟩

/-- `run` catches what the loop throws, reports and returns. -/
def fail (s : KeepAlive) : Outcome KeepAlive Status :=
  if s.point = .ended then ⟨s,[]⟩ else ⟨{ s with isOnline := false, failed := true, point := .ended },[false]⟩

def step (config : Config) : Label → KeepAlive → Outcome KeepAlive Status
  | .pass ms,s => ⟨{ s with clock := s.clock + ms },[]⟩
  | .stop,s => ⟨{ s with running := false },[]⟩
  | .fail,s => s.fail
  | .loop ready,s => loop config ready s

/-- When the last heartbeat was sent, or the loop began. -/
def last (s : KeepAlive) : Nat := latest s.started s.heartbeats

/-- How long it can take from one heartbeat to the next when a turn takes this long. -/
def period (config : Config) (turn : Nat) : Nat := config.heartbeatInterval + 3 * turn

/-- Up to its look at the clock a turn may be late with the heartbeat by one turn, after it
not at all. -/
def Point.Placed (turn turned clock last : Nat) (due : Int) : Point → Prop
  | .top | .offline => turned ≤ due
  | .receive | .sync | .look => turned ≤ due + turn
  | .stamp => turned ≤ last
  | .beat now => turned ≤ due + turn ∧ turned ≤ now ∧ now ≤ clock
  | .expire now => turned ≤ due ∧ turned ≤ now ∧ now ≤ clock
  | .ended => True

/-- How much later than the timeout a turn that has got here may have begun. -/
def Point.slack (turn : Nat) : Point → Nat
  | .top | .offline => 0
  | _ => turn

theorem Point.slack_le (turn : Nat) (point : Point) : point.slack turn ≤ turn := by
  unfold slack
  split <;> omega

structure Pacing (config : Config) (turn : Nat) (s : KeepAlive) : Prop where
  begun : s.turned ≤ s.clock
  brisk : s.point ≠ .ended → s.clock ≤ s.turned + turn
  paced : Paced (period config turn) s.started s.heartbeats
  past : s.last ≤ s.clock
  stamped : s.lastHeartbeat ≤ s.last + turn
  placed : s.point.Placed turn s.turned s.clock s.last (s.lastHeartbeat + config.heartbeatInterval)
  heard : s.started ≤ s.lastRxTime ∧ s.lastRxTime ≤ s.clock ∧ ∀ t ∈ s.received, t ≤ s.lastRxTime
  online : s.isOnline = true → s.lastRxTime ∈ s.received
  fresh : s.isOnline = true → s.turned ≤ s.lastRxTime + config.serverTimeout + s.point.slack turn

variable {config : Config} {turn : Nat} {s : KeepAlive}

theorem Pacing.beats (pacing : Pacing config turn s) (on : s.point ≠ .ended) : s.clock ≤ s.last + period config turn := by
  have brisk := pacing.brisk on
  have stamped := pacing.stamped
  have placed := pacing.placed
  unfold period
  cases place : s.point with
  | ended => exact absurd place on
  | _ =>
    rw [place] at placed
    simp only [Point.Placed] at placed
    omega

/-- The loop goes on to another point. -/
theorem Pacing.goes (pacing : Pacing config turn s) (on : s.point ≠ .ended) {point : Point}
    (placed : point.Placed turn s.turned s.clock s.last (s.lastHeartbeat + config.heartbeatInterval))
    (slack : s.point.slack turn ≤ point.slack turn) : Pacing config turn { s with point } :=
  ⟨pacing.begun,fun _ => pacing.brisk on,pacing.paced,pacing.past,pacing.stamped,placed,pacing.heard,pacing.online,
    fun online => le_trans (pacing.fresh online) (Nat.add_le_add_left slack _)⟩

/-- It sends a heartbeat; the time it notes for it may be that of an earlier look at the clock. -/
theorem Pacing.sends (pacing : Pacing config turn s) (on : s.point ≠ .ended) {noted : Int} {point : Point}
    (recent : noted ≤ s.clock + turn)
    (placed : point.Placed turn s.turned s.clock s.clock (noted + config.heartbeatInterval))
    (slack : s.point.slack turn ≤ point.slack turn) :
    Pacing config turn { s with heartbeats := s.heartbeats ++ [s.clock], lastHeartbeat := noted, point } := by
  have last : latest s.started (s.heartbeats ++ [s.clock]) = s.clock := latest_snoc _ _ _
  refine ⟨pacing.begun,fun _ => pacing.brisk on,paced_snoc pacing.paced pacing.past (pacing.beats on),le_of_eq last,?_,?_,
    pacing.heard,pacing.online,fun online => le_trans (pacing.fresh online) (Nat.add_le_add_left slack _)⟩
  · change noted ≤ (latest s.started (s.heartbeats ++ [s.clock]) : Nat) + (turn : Int)
    rw [last]
    exact recent
  · change point.Placed turn s.turned s.clock (latest s.started (s.heartbeats ++ [s.clock])) _
    rw [last]
    exact placed

/-- What comes in is the latest that has. -/
theorem Pacing.hears (pacing : Pacing config turn s) (place : s.point = .receive) :
    Pacing config turn { s with
      lastRxTime := s.clock
      received := s.received ++ [s.clock]
      isOnline := true
      point := .sync } := by
  have on : s.point ≠ .ended := by rw [place]; rintro ⟨⟩
  have placed := pacing.placed
  rw [place] at placed
  obtain ⟨since,read,heard⟩ := pacing.heard
  refine ⟨pacing.begun,fun _ => pacing.brisk on,pacing.paced,pacing.past,pacing.stamped,placed,
    ⟨le_trans since read,le_refl _,?_⟩,fun _ => ?_,fun _ => ?_⟩
  · rw [List.forall_mem_append]
    exact ⟨fun t member => le_trans (heard t member) read,fun t member => le_of_eq (List.mem_singleton.mp member)⟩
  · exact List.mem_append_right _ (List.mem_singleton_self _)
  · exact le_trans pacing.begun (Nat.le_add_right_of_le (Nat.le_add_right _ _))

/-- The next turn begins no later than the last one may end. -/
theorem Pacing.turns (pacing : Pacing config turn s) (place : s.point = .top) :
    Pacing config turn { s with turned := s.clock, point := .receive } := by
  have late := pacing.brisk (by rw [place]; rintro ⟨⟩)
  have placed := pacing.placed
  have fresh := pacing.fresh
  rw [place] at placed fresh
  have prompt : (s.clock : Int) ≤ s.lastHeartbeat + config.heartbeatInterval + turn := by
    change (s.turned : Int) ≤ _ at placed
    omega
  exact ⟨le_refl _,fun _ => Nat.le_add_right _ _,pacing.paced,pacing.past,pacing.stamped,prompt,pacing.heard,pacing.online,
    fun online => le_trans late (Nat.add_le_add_right (fresh online) turn)⟩

/-- The clock that a turn has read decides whether the broker is silent. -/
theorem Pacing.expires (pacing : Pacing config turn s) {now : Nat} (place : s.point = .expire now)
    (soon : s.isOnline = true → now ≤ s.lastRxTime + config.serverTimeout) : Pacing config turn { s with point := .top } := by
  have on : s.point ≠ .ended := by rw [place]; rintro ⟨⟩
  have placed := pacing.placed
  rw [place] at placed
  exact ⟨pacing.begun,fun _ => pacing.brisk on,pacing.paced,pacing.past,pacing.stamped,placed.1,pacing.heard,pacing.online,
    fun online => le_trans placed.2.1 (soon online)⟩

theorem loop_paced (pacing : Pacing config turn s) (ready : Bool) : Pacing config turn (loop config ready s).state := by
  have placed := pacing.placed
  by_cases on : s.point = .ended
  · rw [loop,on]
    exact pacing
  have brisk := pacing.brisk on
  rw [loop]
  cases place : s.point with
  | ended => exact absurd place on
  | top =>
    dsimp only
    split
    · exact pacing.turns place
    · exact pacing.goes on trivial (by rw [place]; exact Nat.zero_le _)
  | receive =>
    rw [place] at placed
    dsimp only
    split
    · exact pacing.hears place
    · exact pacing.goes on placed (by rw [place]; exact le_refl _)
  | sync =>
    rw [place] at placed
    dsimp only
    split
    · have stamped := pacing.stamped
      have past := pacing.past
      exact pacing.sends on (by omega) pacing.begun (by rw [place]; exact le_refl _)
    · exact pacing.goes on placed (by rw [place]; exact le_refl _)
  | stamp =>
    rw [place] at placed
    change s.turned ≤ s.last at placed
    have near : (s.clock : Int) ≤ s.last + turn := by omega
    have prompt : (s.turned : Int) ≤ s.clock + config.heartbeatInterval + turn := by
      have past := pacing.past
      omega
    obtain ⟨begun,-,paced,past,-,-,heard,online,fresh⟩ := pacing
    rw [place] at fresh
    exact ⟨begun,fun _ => brisk,paced,past,near,prompt,heard,online,fresh⟩
  | look =>
    rw [place] at placed
    change (s.turned : Int) ≤ _ at placed
    dsimp only
    split
    · exact pacing.goes on ⟨placed,pacing.begun,le_refl _⟩ (by rw [place]; exact le_refl _)
    next early =>
      have begun := pacing.begun
      have prompt : (s.turned : Int) ≤ s.lastHeartbeat + config.heartbeatInterval := by omega
      exact pacing.goes on ⟨prompt,pacing.begun,le_refl _⟩ (by rw [place]; exact le_refl _)
  | beat now =>
    rw [place] at placed
    obtain ⟨-,later,read⟩ := placed
    have prompt : (s.turned : Int) ≤ now + config.heartbeatInterval := by omega
    exact pacing.sends on (by omega) ⟨prompt,later,read⟩ (by rw [place]; exact le_refl _)
  | expire now =>
    rw [place] at placed
    dsimp only
    split
    · obtain ⟨begun,-,paced,past,stamped,-,heard,-,-⟩ := pacing
      exact ⟨begun,fun _ => brisk,paced,past,stamped,placed.1,heard,by rintro ⟨⟩,by rintro ⟨⟩⟩
    next quiet =>
      refine pacing.expires place fun online => ?_
      simp only [Bool.and_eq_true,decide_eq_true_eq,not_and] at quiet
      have := quiet online
      omega
  | offline =>
    rw [place] at placed
    exact pacing.goes on placed (by rw [place]; exact le_refl _)

/-- A turn of the loop takes no longer than this. -/
def Brisk (turn : Nat) (s : KeepAlive) : Prop := s.point ≠ .ended → s.clock ≤ s.turned + turn

instance (turn : Nat) (s : KeepAlive) : Decidable (Brisk turn s) := inferInstanceAs (Decidable (_ → _))

theorem Point.Placed.later {point : Point} {turned clock last : Nat} {due : Int}
    (placed : point.Placed turn turned clock last due) {clock' : Nat} (passes : clock ≤ clock') :
    point.Placed turn turned clock' last due := by
  cases point with
  | beat now => exact ⟨placed.1,placed.2.1,le_trans placed.2.2 passes⟩
  | expire now => exact ⟨placed.1,placed.2.1,le_trans placed.2.2 passes⟩
  | _ => exact placed

theorem step_paced {label : Label} (brisk : Brisk turn (step config label s).state) (pacing : Pacing config turn s) :
    Pacing config turn (step config label s).state := by
  cases label with
  | pass ms =>
    have passes : s.clock ≤ s.clock + ms := Nat.le_add_right _ _
    exact ⟨le_trans pacing.begun passes,brisk,pacing.paced,le_trans pacing.past passes,pacing.stamped,pacing.placed.later passes,
      ⟨pacing.heard.1,le_trans pacing.heard.2.1 passes,pacing.heard.2.2⟩,pacing.online,pacing.fresh⟩
  | stop =>
    obtain ⟨begun,brisk,paced,past,stamped,placed,heard,online,fresh⟩ := pacing
    exact ⟨begun,brisk,paced,past,stamped,placed,heard,online,fresh⟩
  | fail =>
    rw [step,fail]
    split
    · exact pacing
    · obtain ⟨begun,-,paced,past,stamped,-,heard,-,-⟩ := pacing
      exact ⟨begun,fun on => absurd rfl on,paced,past,stamped,trivial,heard,nofun,nofun⟩
  | loop ready => exact loop_paced pacing ready

theorem start_paced (config : Config) (turn clock : Nat) : Pacing config turn (start config clock) where
  begun := le_refl _
  brisk _ := Nat.le_add_right _ _
  paced := trivial
  past := le_refl _
  stamped := by
    change (clock : Int) - config.heartbeatInterval ≤ clock + turn
    omega
  placed := by
    change (clock : Int) ≤ clock - config.heartbeatInterval + config.heartbeatInterval
    omega
  heard := ⟨le_refl _,le_refl _,List.forall_mem_nil _⟩
  online := nofun
  fresh := nofun

/-- Of the heartbeats sent longer than `delay` ago, no more than `lost` in a row went by with
nothing coming in since. -/
def Answered (delay lost : Nat) (s : KeepAlive) : Prop :=
  ∀ m < s.heartbeats.length,
    let window := (s.heartbeats.drop m).take (lost + 1)
    window.length = lost + 1 → (∀ sent ∈ window, sent + delay < s.clock) → ∃ sent ∈ window, ∃ t ∈ s.received, sent ≤ t

instance (delay lost : Nat) (s : KeepAlive) : Decidable (Answered delay lost s) :=
  inferInstanceAs (Decidable (∀ _ < _, _ → _ → _))

/-- With heartbeats answered in time something came in a short time ago. -/
theorem Pacing.lively (pacing : Pacing config turn s) (on : s.point ≠ .ended) {delay lost : Nat}
    (answered : Answered delay lost s) : s.clock ≤ s.lastRxTime + (delay + (lost + 1) * period config turn) := by
  obtain ⟨first,-,all⟩ := pacing.heard
  by_contra late
  rw [not_le] at late
  obtain ⟨m,whole,near⟩ := paced_recent pacing.paced (pacing.beats on) delay (lost + 1) (by omega)
  have inside : m < s.heartbeats.length := by
    rw [List.length_take,List.length_drop] at whole
    omega
  obtain ⟨sent,member,t,came,later⟩ := answered m inside whole fun sent member => (near sent member).1
  have recent := (near sent member).2
  have known := all t came
  omega

/-- Everything along the way is brisk and answered. -/
def Healthy (config : Config) (turn delay lost : Nat) (labels : List Label) (s : KeepAlive) : Prop :=
  Always (step config) (fun s label => Brisk turn (step config label s).state ∧ Answered delay lost s) labels s

instance (config : Config) (turn delay lost : Nat) (labels : List Label) (s : KeepAlive) :
    Decidable (Healthy config turn delay lost labels s) :=
  inferInstanceAs (Decidable (Always _ _ _ _))

/-- What a worker that has not timed out has told. -/
def told (s : KeepAlive) : List Status :=
  if s.point = .offline then [] else if s.isOnline then [false,true] else [false]

/-- The reports of a worker that has not timed out: that it is offline, that it is online, and
at an exception that it is offline. -/
structure Reported (trace : List Status) (s : KeepAlive) : Prop where
  first : s.point = .offline → s.isOnline = false
  spent : s.failed = true → s.point = .ended
  going : s.failed = false → trace = s.told
  thrown : s.failed = true → ∃ told, told <+: [false,true] ∧ trace = told ++ [false]

theorem told_prefix (s : KeepAlive) : s.told <+: [false,true] := by
  unfold told
  split
  · exact List.nil_prefix
  · split
    · exact List.prefix_rfl
    · exact ⟨[true],rfl⟩

variable {trace : List Status}

theorem Reported.holds (reported : Reported trace s) :
    ∃ told, told <+: [false,true] ∧ trace = told ++ if s.failed then [false] else [] := by
  cases failed : s.failed with
  | false => exact ⟨s.told,s.told_prefix,by simpa using reported.going failed⟩
  | true => simpa using reported.thrown failed

theorem Reported.sound (reported : Reported trace s) (on : s.point ≠ .ended) : s.failed = false := by
  by_contra failed
  exact on (reported.spent (by simpa using failed))

/-- A step that fails nowhere and reports what it changes. -/
theorem Reported.goes (reported : Reported trace s) (on : s.point ≠ .ended) {next : Outcome KeepAlive Status}
    (same : next.state.failed = s.failed) (first : next.state.point = .offline → next.state.isOnline = false)
    (told : s.told ++ next.events = next.state.told) : Reported (trace ++ next.events) next.state := by
  have sound := reported.sound on
  rw [sound] at same
  refine ⟨first,fun failed => ?_,fun _ => reported.going sound ▸ told,fun failed => ?_⟩
  · rw [same] at failed
    cases failed
  · rw [same] at failed
    cases failed

/-- No step of the loop fails, and none that hears of the broker in time reports anything new. -/
theorem Reported.loop (reported : Reported trace s) (ready : Bool)
    (lively : ∀ now, s.point = .expire now → now ≤ s.lastRxTime + config.serverTimeout) :
    Reported (trace ++ (loop config ready s).events) (loop config ready s).state := by
  by_cases ended : s.point = .ended
  · rw [KeepAlive.loop,ended]
    simpa using reported
  have goes := @Reported.goes s trace reported ended
  rw [KeepAlive.loop]
  split
  next here => split <;> exact goes rfl nofun (by simp [told,here])
  next here =>
    split
    · refine goes rfl nofun ?_
      cases online : s.isOnline <;> simp [told,here,online]
    · exact goes rfl nofun (by simp [told,here])
  next here => split <;> exact goes rfl nofun (by simp [told,here])
  next here => exact goes rfl nofun (by simp [told,here])
  next here => split <;> exact goes rfl nofun (by simp [told,here])
  next here => exact goes rfl nofun (by simp [told,here])
  next now here =>
    split
    next silent =>
      have soon := lively now here
      simp only [Bool.and_eq_true,decide_eq_true_eq] at silent
      omega
    · exact goes rfl nofun (by simp [told,here])
  next here => exact goes rfl nofun (by simp [told,here,reported.first here])
  next here => exact absurd here ended

/-- Where nothing is lost and nothing takes any time, every configuration will do. -/
example (config : Config) : 0 + (0 + 1) * period config 0 ≤ config.serverTimeout := by
  have := config.interval_lt_timeout
  unfold period
  omega

/-- One turn; one in which a heartbeat is due has a step more. -/
def turnWith (heard due : Bool) : List Label :=
  [.pass 200,.loop false,.loop heard,.loop false,.loop false,.loop false] ++ if due then [.loop false] else []

/-- A heartbeat, its answer in the next turn, and silence up to the next heartbeat. -/
def quiet : List Label :=
  .loop false :: turnWith false true ++ turnWith true false ++ (List.range 14).flatMap (fun _ => turnWith false false) ++ turnWith false true ++
    turnWith false false

/-- A broker that is gone is noticed: a worker that is online has heard something no longer
ago than its timeout and two turns. -/
theorem silence_is_noticed (config : Config) (turn clock : Nat) (labels : List Label)
    (brisk : Always (step config) (fun s label => Brisk turn (step config label s).state) labels (start config clock)) :
    let s := (run (step config) labels (start config clock)).state
    s.point ≠ .ended → s.isOnline = true → ∃ t ∈ s.received, s.clock ≤ t + config.serverTimeout + 2 * turn := by
  intro s running online
  have pacing : Pacing config turn s := run_invariant (step config) (Pacing config turn) (fun _ _ => step_paced) labels _ brisk
    (start_paced config turn clock)
  have fresh := pacing.fresh online
  have late := pacing.brisk running
  have slack := s.point.slack_le turn
  exact ⟨s.lastRxTime,pacing.online online,by omega⟩

theorem silence_is_noticed_quiet :
    let s := (run (step ⟨3000,10000⟩) quiet (start ⟨3000,10000⟩ 0)).state
    ∃ t ∈ s.received, s.clock ≤ t + (Config.mk 3000 10000).serverTimeout + 2 * 200 :=
  silence_is_noticed ⟨3000,10000⟩ 200 0 quiet (by decide +kernel) (by decide +kernel) (by decide +kernel)

end KeepAlive

end Wisp
