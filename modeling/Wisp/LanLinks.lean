import Wisp.ClusterSwap
import Wisp.LanMesh

/-! The links behind the tables. A broker's discovery dials within the lock of its table, and
calls the drops of a sweep or a switch one by one when it has left it. Here the brokers of a LAN
carry their links along: a deed of the thread that hears and announces is at most one locked
section, and the drops come in between. -/
namespace Wisp

open Transition

namespace Swapping

variable {s : Swapping}

instance (s : Swapping) (label : Label) : Decidable (s.Settled label) :=
  match label with
  | .datagram _ _ _ => inferInstanceAs (Decidable (_ → _ → _))
  | .setCluster _ | .drop | .expireStale _ | .dropStale => isTrue trivial

/-- A broker that was just started. -/
def fresh (d : Discovery) : Swapping := { Routing.empty with discovery := d, dropping := [], expiring := [] }

/-- What the threads of a broker make of a fresh start, section by section and drop by drop. -/
def Reached (s : Swapping) : Prop := ∃ d sections, d.dialed = ∅ ∧ s = (run step sections (fresh d)).state

theorem fresh_reached {d : Discovery} (empty : d.dialed = ∅) : Reached (fresh d) := ⟨d,[],empty,rfl⟩

theorem Reached.act (reached : Reached s) (label : Label) : Reached (s.act label) := by
  obtain ⟨d,sections,empty,here⟩ := reached
  refine ⟨d,sections ++ [label],empty,?_⟩
  rw [run_snoc,← here]
  rfl

theorem fresh_matched {d : Discovery} (empty : d.dialed = ∅) : Matched [] (fresh d) := by
  refine ⟨fun uuid dialed => ?_,fun link member => absurd member List.not_mem_nil,fun uuid _ => ?_⟩
  · rw [fresh,empty] at dialed
    exact absurd dialed (AList.notMem_empty _)
  · rw [fresh,empty]
    exact AList.notMem_empty _

@[simp] theorem dial_discovery (target : Option (Str × Str)) : (s.dial target).discovery = s.discovery := by
  unfold dial
  split <;> rfl

theorem drop_discovery (s : Swapping) : (s.act .drop).discovery = s.discovery := by
  rw [act]
  split <;> rfl

theorem dropStale_discovery (s : Swapping) : (s.act .dropStale).discovery = s.discovery := by
  rw [act]
  split <;> rfl

/-- A link is one there was, or the one that a dial adds. -/
theorem mem_act {label : Label} {link : PeerLink} (member : link ∈ (s.act label).peers) :
    link ∈ s.peers ∨ ∃ senderIp heard now, label = .datagram senderIp heard now ∧ link.key = heard.uuid ∧
      link.address = heard.address senderIp := by
  cases label with
  | setCluster cluster =>
    simp only [act] at member
    split at member <;> exact .inl member
  | expireStale now =>
    simp only [act] at member
    split at member <;> exact .inl member
  | drop =>
    simp only [act] at member
    split at member
    · exact .inl member
    · exact .inl (Routing.mem_removePeer.mp member).1
  | dropStale =>
    simp only [act] at member
    split at member
    · exact .inl member
    · exact .inl (Routing.mem_removePeer.mp member).1
  | datagram senderIp heard now =>
    simp only [act] at member
    split at member
    · rw [s.discovery.onDatagram_eq] at member
      split at member
      · split at member
        · exact .inl member
        · simp only [dial,Routing.addPeer] at member
          split at member
          · exact .inl member
          · rcases List.mem_append.mp member with old | new
            · exact .inl old
            · rw [List.mem_singleton.mp new]
              exact .inr ⟨senderIp,heard,now,rfl,rfl,rfl⟩
      · exact .inl member
    · exact .inl member

end Swapping

/-- No two brokers are reached at one address. -/
def Network.Located {n : Nat} (net : Network n) : Prop :=
  ∀ i j cluster, (net.site i).address cluster = (net.site j).address cluster → i = j

namespace Station

variable {n : Nat}

/-- The locked section that a deed is, if it is one. -/
def sections (net : Network n) : Deed n → Station n → List Swapping.Label
  | .expire,t =>
    match t.point with
    | .expiring now => [.expireStale now]
    | _ => []
  | .handle,t =>
    match t.point with
    | .hearing packet now =>
      [.datagram (net.site packet.sender).ip ((net.site packet.sender).announces packet.cluster) now]
    | _ => []
  | .setCluster cluster,_ => if Beacon.isValidClusterName cluster then [.setCluster cluster] else []
  | .start,_ | .stop,_ | .turn,_ | .encode,_ | .broadcast,_ | .receive _,_ => []

/-- The thread whose deed it is has called the drops of its last section. `Broker::stop` joins
both threads, so a broker that starts again has none left. -/
def Deed.ready (links : Swapping) : Deed n → Bool
  | .start => links.dropping.isEmpty && links.expiring.isEmpty
  | .stop => true
  | .setCluster _ => links.dropping.isEmpty
  | .turn | .encode | .broadcast | .expire | .receive _ | .handle => links.expiring.isEmpty

/-- What a deed does to the links. `Broker::stop` takes all of them down. -/
def follow (net : Network n) (deed : Deed n) (t : Station n) (links : Swapping) : Swapping :=
  if deed = .start ∧ t.point = .off then .fresh { t.discovery with dialed := ∅ }
  else (run Swapping.step (t.sections net deed) links).state

section

variable {net : Network n} {i : Fin n} {clock : Nat} {air : List (Packet n)} {t : Station n} {links : Swapping}

theorem follow_section {deed : Deed n} (label : Swapping.Label) (locks : t.sections net deed = [label]) :
    t.follow net deed links = links.act label := by
  unfold follow
  split
  next starts =>
    rw [starts.1] at locks
    cases locks
  · rw [locks]
    rfl

theorem follow_apart {deed : Deed n} (none : t.sections net deed = []) (goesOn : deed ≠ .start) :
    t.follow net deed links = links := by
  rw [follow,if_neg fun starts => goesOn starts.1,none]
  rfl

section

variable (same : links.discovery = t.discovery)

include same

theorem follow_expire (idle : links.expiring = []) :
    (t.follow net .expire links).discovery = (t.act net i clock .expire).state.discovery := by
  cases place : t.point with
  | expiring now =>
    rw [follow_section (.expireStale now) (by rw [sections,place]),Swapping.act,if_pos idle,act,place,same]
    rfl
  | _ =>
    rw [follow_apart (by rw [sections,place]) (by rintro ⟨⟩),act,place]
    exact same

theorem follow_handle (sound : Sound net i clock air t) (flies : ∀ packet ∈ air, Flown clock packet) (idle : links.expiring = []) :
    (t.follow net .handle links).discovery = (t.act net i clock .handle).state.discovery := by
  cases place : t.point with
  | hearing packet now =>
    have valid := (flies packet (sound.carries place).1).1
    rw [follow_section _ (by rw [sections,place]),Swapping.act,if_pos idle,Swapping.dial_discovery,act,place]
    dsimp only
    rw [Discovery.call,Site.decode_wire _ valid,same]
  | _ =>
    rw [follow_apart (by rw [sections,place]) (by rintro ⟨⟩),act,place]
    exact same

theorem follow_setCluster (cluster : Str) (idle : links.dropping = []) :
    (t.follow net (.setCluster cluster) links).discovery = (t.act net i clock (.setCluster cluster)).state.discovery := by
  by_cases valid : Beacon.isValidClusterName cluster = true
  · rw [follow_section (.setCluster cluster) (by rw [sections,if_pos valid]),Swapping.act,if_pos idle,same,act]
    split
    next stays =>
      rw [valid,Bool.not_true,Bool.false_or,beq_iff_eq] at stays
      rw [Discovery.setCluster,if_pos stays]
    · rfl
  · rw [follow_apart (by rw [sections,if_neg valid]) (by rintro ⟨⟩),act]
    rw [Bool.not_eq_true] at valid
    rw [valid]
    exact same

/-- The table of the links stays the table of the station. -/
theorem follow_discovery (sound : Sound net i clock air t) (flies : ∀ packet ∈ air, Flown clock packet) {deed : Deed n}
    (ready : deed.ready links = true) :
    (t.follow net deed links).discovery = (t.act net i clock deed).state.discovery := by
  cases deed with
  | start =>
    rw [act]
    split
    next off =>
      rw [follow,if_pos ⟨rfl,off⟩]
      rfl
    next on =>
      rw [follow,if_neg fun starts => on starts.2]
      exact same
  | stop => exact (congrArg _ (follow_apart rfl (by rintro ⟨⟩))).trans same
  | encode =>
    rw [follow_apart rfl (by rintro ⟨⟩),act]
    split <;> exact same
  | broadcast =>
    rw [follow_apart rfl (by rintro ⟨⟩),act]
    split <;> exact same
  | turn =>
    rw [follow_apart rfl (by rintro ⟨⟩),act]
    split
    · split
      · exact same
      · split <;> exact same
    · exact same
  | receive packet =>
    rw [follow_apart rfl (by rintro ⟨⟩)]
    cases packet with
    | none =>
      rw [act]
      split <;> exact same
    | some packet =>
      rw [act]
      split <;> exact same
  | expire => exact follow_expire same (List.isEmpty_iff.mp ready)
  | handle => exact follow_handle same sound flies (List.isEmpty_iff.mp ready)
  | setCluster cluster => exact follow_setCluster same cluster (List.isEmpty_iff.mp ready)

end

/-- A deed is one section or none. -/
theorem sections_cases (net : Network n) (deed : Deed n) (t : Station n) :
    t.sections net deed = [] ∨ ∃ label, t.sections net deed = [label] := by
  unfold sections
  split
  · split
    · exact .inr ⟨_,rfl⟩
    · exact .inl rfl
  · split
    · exact .inr ⟨_,rfl⟩
    · exact .inl rfl
  · split
    · exact .inr ⟨_,rfl⟩
    · exact .inl rfl
  all_goals exact .inl rfl

/-- What holds of a fresh start, and after each section, holds after each deed. -/
theorem follow_preserves {property : Swapping → Prop} {deed : Deed n}
    (starts : property (.fresh { t.discovery with dialed := ∅ })) (holds : property links)
    (preserved : ∀ label ∈ t.sections net deed, property (links.act label)) : property (t.follow net deed links) := by
  unfold follow
  split
  · exact starts
  · rcases t.sections_cases net deed with none | ⟨label,one⟩
    · rw [none]
      exact holds
    · rw [one] at preserved ⊢
      exact preserved label (List.mem_singleton_self _)

/-- What is heard is what a broker of the LAN announced. -/
theorem mem_sections {deed : Deed n} {senderIp : Str} {heard : Beacon} {now : Nat}
    (member : .datagram senderIp heard now ∈ t.sections net deed) :
    ∃ j cluster, heard.uuid = (net.site j).uuid ∧ heard.address senderIp = (net.site j).address cluster := by
  cases deed with
  | handle =>
    rw [sections] at member
    split at member
    next packet clock place =>
      cases List.mem_singleton.mp member
      exact ⟨packet.sender,packet.cluster,rfl,rfl⟩
    · cases member
  | expire =>
    rw [sections] at member
    split at member
    · cases List.mem_singleton.mp member
    · cases member
  | setCluster cluster =>
    rw [sections] at member
    split at member
    · cases List.mem_singleton.mp member
    · cases member
  | start | stop | turn | encode | broadcast | receive _ => cases member

/-- A link stands for a broker of the LAN, at its address. -/
def Genuine (net : Network n) (links : Swapping) : Prop :=
  ∀ link ∈ links.peers, ∃ j cluster, link.key = (net.site j).uuid ∧ link.address = (net.site j).address cluster

theorem follow_genuine (genuine : Genuine net links) (deed : Deed n) : Genuine net (t.follow net deed links) := by
  apply follow_preserves
  · exact fun link member => absurd member List.not_mem_nil
  · exact genuine
  · intro label locks link member
    rcases Swapping.mem_act member with old | ⟨senderIp,heard,now,rfl,key,address⟩
    · exact genuine link old
    · rw [key,address]
      exact mem_sections locks

theorem follow_matched (located : net.Located) (genuine : Genuine net links) {deed : Deed n}
    (settled : ∀ label ∈ t.sections net deed, links.Settled label) (matched : links.Matched []) :
    (t.follow net deed links).Matched [] := by
  refine follow_preserves (Swapping.fresh_matched rfl) matched fun label locks => ?_
  refine matched.act label ?_ (settled label locks)
  cases label with
  | datagram senderIp heard now =>
    intro link member here
    obtain ⟨j,cluster,named,reached⟩ := mem_sections locks
    obtain ⟨k,other,key,address⟩ := genuine link member
    -- the address says nothing of the cluster
    have apart : (net.site k).address cluster = (net.site j).address cluster := address.symm.trans (here.trans reached)
    rw [key,named,located k j cluster apart]
  | setCluster _ | drop | expireStale _ | dropStale => trivial

end

end Station

/-- A LAN whose brokers have their links. -/
structure LinkedLan (n : Nat) extends Lan n where
  links : Fin n → Swapping

namespace LinkedLan

variable {n : Nat}

inductive Label (n : Nat) where
  | lan (label : Lan.Label n)
  /-- The broker thread calls the next drop of its switch. -/
  | drop (i : Fin n)
  /-- The discovery thread calls the next drop of its sweep. -/
  | dropStale (i : Fin n)

def ready : Lan.Label n → LinkedLan n → Bool
  | .pass _,_ => true
  | .act i deed,s => deed.ready (s.links i)

def follow (net : Network n) : Lan.Label n → LinkedLan n → Fin n → Swapping
  | .pass _,s => s.links
  | .act i deed,s => Function.update s.links i ((s.station i).follow net deed (s.links i))

def act (i : Fin n) (label : Swapping.Label) (s : LinkedLan n) : LinkedLan n :=
  { s with links := Function.update s.links i ((s.links i).act label) }

def step (net : Network n) : Label n → LinkedLan n → Outcome (LinkedLan n) (Fin n × Discovery.Report)
  | .lan label,s =>
    if s.ready label then ⟨⟨(Lan.step net label s.toLan).state,s.follow net label⟩,(Lan.step net label s.toLan).events⟩
    else ⟨s,[]⟩
  | .drop i,s => ⟨s.act i .drop,[]⟩
  | .dropStale i,s => ⟨s.act i .dropStale,[]⟩

def initial (net : Network n) (cluster : Fin n → Lan.ClusterName) : LinkedLan n :=
  ⟨Lan.initial net cluster,fun i => .fresh ((Lan.initial net cluster).station i).discovery⟩

/-- What the LAN does in a step, or in a run. -/
def deeds : Label n → LinkedLan n → List (Lan.Label n)
  | .lan label,s => if s.ready label then [label] else []
  | .drop _,_ | .dropStale _,_ => []

def schedule (net : Network n) : List (Label n) → LinkedLan n → List (Lan.Label n)
  | [],_ => []
  | label :: rest,s => s.deeds label ++ schedule net rest (step net label s).state

section

variable {net : Network n} {s : LinkedLan n}

theorem step_lan (net : Network n) (label : Label n) (s : LinkedLan n) :
    (step net label s).state.toLan = (run (Lan.step net) (s.deeds label) s.toLan).state ∧
      (step net label s).events = (run (Lan.step net) (s.deeds label) s.toLan).events := by
  cases label with
  | lan label =>
    rw [step,deeds]
    split
    · simp [run]
    · exact ⟨rfl,rfl⟩
  | drop i | dropStale i => exact ⟨rfl,rfl⟩

/-- The links take nothing away from what the LAN does: its part of a run is a run of its own. -/
theorem run_lan (net : Network n) (labels : List (Label n)) (s : LinkedLan n) :
    (run (step net) labels s).state.toLan = (run (Lan.step net) (s.schedule net labels) s.toLan).state ∧
      (run (step net) labels s).events = (run (Lan.step net) (s.schedule net labels) s.toLan).events := by
  induction labels generalizing s with
  | nil => exact ⟨rfl,rfl⟩
  | cons label rest ih =>
    obtain ⟨state,events⟩ := step_lan net label s
    obtain ⟨later,reported⟩ := ih (step net label s).state
    rw [run,schedule,run_append]
    rw [later,reported,events,state]
    exact ⟨rfl,rfl⟩

/-- The LAN as it can be, and every table of links with the table of its station. -/
structure Agrees (net : Network n) (s : LinkedLan n) : Prop where
  sound : s.toLan.Sound net
  same : ∀ i, (s.links i).discovery = (s.station i).discovery

theorem Agrees.deed (agrees : Agrees net s) {i : Fin n} {deed : Station.Deed n} (ready : deed.ready (s.links i) = true)
    (j : Fin n) : (s.follow net (.act i deed) j).discovery = ((Lan.step net (.act i deed) s.toLan).state.station j).discovery := by
  rw [follow,Lan.step]
  by_cases it : j = i
  · subst it
    rw [Function.update_self]
    split
    · change _ = (Function.update s.station j _ j).discovery
      rw [Function.update_self]
      exact Station.follow_discovery (agrees.same j) (agrees.sound.station j) agrees.sound.air ready
    next impossible =>
      -- only a packet that was never sent is not there to be received
      cases deed with
      | receive packet => exact (congrArg _ (Station.follow_apart rfl (by rintro ⟨⟩))).trans (agrees.same j)
      | _ => exact absurd rfl impossible
  · rw [Function.update_of_ne it]
    split
    · change _ = (Function.update s.station i _ j).discovery
      rw [Function.update_of_ne it]
      exact agrees.same j
    · exact agrees.same j

theorem Agrees.step (agrees : Agrees net s) (label : Label n) : Agrees net (step net label s).state := by
  have dropped (i : Fin n) {which : Swapping.Label} (kept : ∀ links : Swapping, (links.act which).discovery = links.discovery) :
      Agrees net (s.act i which) := by
    refine ⟨agrees.sound,fun j => ?_⟩
    change (Function.update s.links i _ j).discovery = (s.station j).discovery
    by_cases it : j = i
    · subst it
      rw [Function.update_self,kept]
      exact agrees.same j
    · rw [Function.update_of_ne it]
      exact agrees.same j
  cases label with
  | lan label =>
    rw [LinkedLan.step]
    split
    next ready =>
      refine ⟨Lan.step_sound agrees.sound label,fun j => ?_⟩
      cases label with
      | pass ms => exact agrees.same j
      | act i deed => exact agrees.deed ready j
    · exact agrees
  | drop i => exact dropped i Swapping.drop_discovery
  | dropStale i => exact dropped i Swapping.dropStale_discovery

theorem initial_agrees (cluster : Fin n → Lan.ClusterName) : Agrees net (initial net cluster) :=
  ⟨Lan.initial_sound cluster,fun _ => rfl⟩

theorem run_agrees (cluster : Fin n → Lan.ClusterName) (labels : List (Label n)) :
    Agrees net (run (step net) labels (initial net cluster)).state :=
  run_preserves (step net) (Agrees net) (fun _ label agrees => agrees.step label) labels _ (initial_agrees cluster)

/-- What becomes of one broker's links in a step. -/
inductive Change (net : Network n) (label : Label n) (s : LinkedLan n) (j : Fin n) : Swapping → Prop
  | same : Change net label s j (s.links j)
  | follows (deed : Station.Deed n) (its : label = .lan (.act j deed)) (ready : deed.ready (s.links j) = true) :
      Change net label s j ((s.station j).follow net deed (s.links j))
  | drops (which : Swapping.Label) (drop : which = .drop ∨ which = .dropStale) : Change net label s j ((s.links j).act which)

theorem step_change (net : Network n) (label : Label n) (s : LinkedLan n) (j : Fin n) :
    Change net label s j ((step net label s).state.links j) := by
  have dropped (i : Fin n) {which : Swapping.Label} (drop : which = .drop ∨ which = .dropStale) :
      Change net label s j ((s.act i which).links j) := by
    change Change net label s j (Function.update s.links i _ j)
    by_cases it : j = i
    · subst it
      rw [Function.update_self]
      exact .drops which drop
    · rw [Function.update_of_ne it]
      exact .same
  cases label with
  | lan label =>
    rw [step]
    split
    next ready =>
      cases label with
      | pass ms => exact .same
      | act i deed =>
        change Change net _ s j (Function.update s.links i _ j)
        by_cases it : j = i
        · subst it
          rw [Function.update_self]
          exact .follows deed rfl ready
        · rw [Function.update_of_ne it]
          exact .same
    · exact .same
  | drop i => exact dropped i (.inl rfl)
  | dropStale i => exact dropped i (.inr rfl)

theorem links_reached (net : Network n) (cluster : Fin n → Lan.ClusterName) (labels : List (Label n)) (i : Fin n) :
    ((run (step net) labels (initial net cluster)).state.links i).Reached := by
  refine run_preserves (step net) (fun s => (s.links i).Reached) (fun s label reached => ?_) labels _ (Swapping.fresh_reached rfl)
  have change := step_change net label s i
  generalize (step net label s).state.links i = after at change ⊢
  cases change with
  | same => exact reached
  | drops which drop => exact reached.act which
  | follows deed its ready => exact Station.follow_preserves (Swapping.fresh_reached rfl) reached fun which _ => reached.act which

/-- No thread has a drop left to call. -/
def Idle (s : LinkedLan n) : Prop := ∀ i, (s.links i).dropping = [] ∧ (s.links i).expiring = []

theorem Idle.ready (idle : Idle s) (label : Lan.Label n) : s.ready label = true := by
  cases label with
  | pass ms => rfl
  | act i deed =>
    obtain ⟨dropping,expiring⟩ := idle i
    cases deed <;> simp [LinkedLan.ready,Station.Deed.ready,dropping,expiring]

theorem schedule_append (net : Network n) (first later : List (Label n)) (s : LinkedLan n) :
    s.schedule net (first ++ later) = s.schedule net first ++ (run (step net) first s).state.schedule net later := by
  induction first generalizing s with
  | nil => rfl
  | cons label rest ih => rw [List.cons_append,schedule,ih,schedule,run,List.append_assoc]

/-- A broker's threads can call all their drops, and nothing else changes. -/
def Drains (net : Network n) (i : Fin n) (s : LinkedLan n) : Prop :=
  ∃ drops, s.schedule net drops = [] ∧ ((run (step net) drops s).state.links i).dropping = [] ∧
    ((run (step net) drops s).state.links i).expiring = [] ∧ ∀ j, j ≠ i → (run (step net) drops s).state.links j = s.links j

theorem Drains.after {i : Fin n} {which : Swapping.Label} (label : Label n) (acts : step net label s = ⟨s.act i which,[]⟩)
    (none : s.deeds label = []) (later : Drains net i (s.act i which)) : Drains net i s := by
  obtain ⟨drops,silent,dropping,expiring,others⟩ := later
  refine ⟨label :: drops,?_,?_,?_,fun j it => ?_⟩
  · rw [schedule,none,acts]
    exact silent
  all_goals rw [run,acts]
  · exact dropping
  · exact expiring
  · exact (others j it).trans (Function.update_of_ne it _ _)

theorem drains (net : Network n) (i : Fin n) (s : LinkedLan n) : Drains net i s := by
  have here (which : Swapping.Label) : (s.act i which).links i = (s.links i).act which := Function.update_self _ _ _
  cases dropping : (s.links i).dropping with
  | cons uuid rest =>
    have shorter : ((s.act i .drop).links i).dropping = rest ∧ ((s.act i .drop).links i).expiring = (s.links i).expiring := by
      rw [here,Swapping.act,dropping]
      exact ⟨rfl,rfl⟩
    exact .after (.drop i) rfl rfl (drains net i (s.act i .drop))
  | nil =>
    cases expiring : (s.links i).expiring with
    | cons uuid rest =>
      have shorter : ((s.act i .dropStale).links i).dropping = [] ∧ ((s.act i .dropStale).links i).expiring = rest := by
        rw [here,Swapping.act,expiring]
        exact ⟨dropping,rfl⟩
      exact .after (.dropStale i) rfl rfl (drains net i (s.act i .dropStale))
    | nil => exact ⟨[],rfl,dropping,expiring,fun _ _ => rfl⟩
termination_by (s.links i).dropping.length + (s.links i).expiring.length
decreasing_by
  · rw [shorter.1,shorter.2,dropping,expiring,List.length_cons]
    omega
  · rw [shorter.1,shorter.2,dropping,List.length_cons]
    omega

/-- Whatever a LAN does, it does with links as well: its threads may call their drops at once. -/
theorem lan_lifts (net : Network n) (labels : List (Lan.Label n)) {s : LinkedLan n} (idle : Idle s) :
    ∃ linked, s.schedule net linked = labels ∧ Idle (run (step net) linked s).state := by
  induction labels generalizing s with
  | nil => exact ⟨[],rfl,idle⟩
  | cons label rest ih =>
    have taken : step net (.lan label) s =
        ⟨⟨(Lan.step net label s.toLan).state,s.follow net label⟩,(Lan.step net label s.toLan).events⟩ :=
      if_pos (idle.ready label)
    have listed : s.deeds (.lan label) = [label] := if_pos (idle.ready label)
    cases label with
    | pass ms =>
      obtain ⟨linked,same,rests⟩ := ih (s := (step net (.lan (.pass ms)) s).state) (by rw [taken]; exact idle)
      exact ⟨.lan (.pass ms) :: linked,by rw [schedule,listed,same]; rfl,rests⟩
    | act i deed =>
      obtain ⟨drops,silent,dropping,expiring,others⟩ := drains net i (step net (.lan (.act i deed)) s).state
      have called : Idle (run (step net) drops (step net (.lan (.act i deed)) s).state).state := by
        intro j
        by_cases it : j = i
        · subst it
          exact ⟨dropping,expiring⟩
        · rw [others j it,taken]
          change (Function.update s.links i _ j).dropping = [] ∧ (Function.update s.links i _ j).expiring = []
          rw [Function.update_of_ne it]
          exact idle j
      obtain ⟨linked,same,rests⟩ := ih called
      refine ⟨.lan (.act i deed) :: (drops ++ linked),?_,?_⟩
      · rw [schedule,listed,schedule_append,silent,same]
        rfl
      · rw [run,run_append]
        exact rests

/-- So the discovery of a broker on the LAN is that of some links: its table is the one that
sections and drops lead to from a fresh start. -/
theorem station_reached (net : Network n) (cluster : Fin n → Lan.ClusterName) (labels : List (Lan.Label n)) (i : Fin n) :
    ∃ links : Swapping, links.Reached ∧
      ((run (Lan.step net) labels (Lan.initial net cluster)).state.station i).discovery = links.discovery := by
  obtain ⟨linked,same,-⟩ := lan_lifts net labels (s := initial net cluster) fun _ => ⟨rfl,rfl⟩
  refine ⟨_,links_reached net cluster linked i,?_⟩
  rw [(run_agrees cluster linked).same i,(run_lan net linked _).1,same]
  rfl

/-- No deed enters a peer into a table whose drop is still to be called. -/
def Settled (net : Network n) (s : LinkedLan n) : Label n → Prop
  | .lan (.act i deed) => ∀ which ∈ (s.station i).sections net deed, (s.links i).Settled which
  | _ => True

instance (net : Network n) (s : LinkedLan n) (label : Label n) : Decidable (Settled net s label) :=
  match label with
  | .lan (.act _ _) => inferInstanceAs (Decidable (∀ _ ∈ _, _))
  | .lan (.pass _) | .drop _ | .dropStale _ => isTrue trivial

/-- Whoever is in a table has a link. -/
structure Linked (net : Network n) (s : LinkedLan n) : Prop where
  genuine : ∀ i, Station.Genuine net (s.links i)
  matched : ∀ i, (s.links i).Matched []

theorem Linked.step (located : net.Located) (linked : Linked net s) {label : Label n} (settled : Settled net s label) :
    Linked net (step net label s).state := by
  have each (j : Fin n) : Station.Genuine net ((LinkedLan.step net label s).state.links j) ∧
      ((LinkedLan.step net label s).state.links j).Matched [] := by
    have change := step_change net label s j
    generalize (LinkedLan.step net label s).state.links j = after at change ⊢
    cases change with
    | same => exact ⟨linked.genuine j,linked.matched j⟩
    | follows deed its ready =>
      subst its
      exact ⟨Station.follow_genuine (linked.genuine j) deed,
        Station.follow_matched located (linked.genuine j) settled (linked.matched j)⟩
    | drops which drop =>
      refine ⟨fun link member => ?_,?_⟩
      · rcases Swapping.mem_act member with old | ⟨_,_,_,rfl,_⟩
        · exact linked.genuine j link old
        · rcases drop with drop | drop <;> cases drop
      · rcases drop with rfl | rfl
        · exact (linked.matched j).act .drop trivial trivial
        · exact (linked.matched j).act .dropStale trivial trivial
  exact ⟨fun j => (each j).1,fun j => (each j).2⟩

/-- As long as the announcements get through often enough for the timeout, and no peer is heard
again before its drop was called: of any two brokers of a cluster that have been there for a
while, the one with the smaller uuid has a link to the other. -/
theorem lan_is_linked (net : Network n) (few : n ≤ 65) (located : net.Located) (cluster : Fin n → Lan.ClusterName)
    (labels : List (Label n)) (turn delay lost : Nat)
    (tolerable : delay + (lost + 1) * Station.period turn ≤ Discovery.peerTimeout)
    (brisk : Lan.AlwaysBrisk net turn ((initial net cluster).schedule net labels) (Lan.initial net cluster))
    (settled : Always (step net) (Settled net) labels (initial net cluster))
    (reaches : Lan.Reaches delay lost (run (step net) labels (initial net cluster)).state.toLan) :
    let s := (run (step net) labels (initial net cluster)).state
    ∀ i j, s.toLan.Settled (delay + (lost + 1) * Station.period turn) i →
      s.toLan.Settled (delay + (lost + 1) * Station.period turn) j →
      (s.station i).discovery.cluster = (s.station j).discovery.cluster → (net.site i).uuid < (net.site j).uuid →
      ∃ link ∈ (s.links i).peers, link.key = (net.site j).uuid := by
  intro s i j first second same below
  have agrees : Agrees net s := run_agrees cluster labels
  have paces : Lan.Paces turn s.toLan := by
    rw [(run_lan net labels _).1]
    exact Lan.run_paces brisk
  have linked : Linked net s := by
    refine run_invariant (step net) (Linked net) (fun s label met linked => linked.step located met) labels _ settled ⟨?_,?_⟩
    · exact fun i link member => absurd member List.not_mem_nil
    · exact fun i => Swapping.fresh_matched rfl
  apply (linked.matched i).linked
  rw [agrees.same i]
  exact reaches.dialed agrees.sound paces few tolerable first second same below

end

/-- Two brokers at two ports of a host. -/
def portOf (i : Fin 2) : UInt16 := if i.val = 0 then 5555 else 5556

theorem portOf_usable : ∀ i, portOf i ≠ 0 := by decide

def ports : Network 2 :=
  ⟨fun i => ⟨Lan.lettered i,str "ip",portOf i,0,Lan.lettered_plain i,portOf_usable i⟩,Lan.lettered_injective⟩

theorem ports_located : ports.Located := by
  have apart : ∀ i j, (ports.site i).address [] = (ports.site j).address [] → i = j := by decide
  exact fun i j _ => apart i j

example : ∃ link ∈ ((run (step ports) (Lan.meetings.map .lan) (initial ports Lan.home)).state.links (Fin.last 1).rev).peers,
    link.key = str "b" :=
  lan_is_linked ports (by decide) ports_located Lan.home (Lan.meetings.map .lan) 1000 0 0 (by decide) (by decide +kernel)
    (by decide +kernel) (by decide +kernel) (Fin.last 1).rev (Fin.last 1) (by unfold Lan.Settled; decide +kernel)
    (by unfold Lan.Settled; decide +kernel) (by decide +kernel) (by decide +kernel)

end LinkedLan

end Wisp
