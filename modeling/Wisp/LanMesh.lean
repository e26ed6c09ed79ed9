import Wisp.Lan

/-! What comes of discovery across a LAN: who gets into whose table, how long a silent
broker stays there, and when the tables of a cluster are complete. -/
namespace Wisp

open Transition Pace

namespace Station

variable {n : Nat}

/-- What a thread in the middle of a turn carries with it. -/
def Point.Fits (clock : Nat) (air : List (Packet n)) (heard : List (Packet n × Nat)) : Point n → Prop
  | .off | .top | .receiving => True
  | .announcing now | .expiring now => now ≤ clock
  | .sending now cluster => now ≤ clock ∧ Beacon.isValidClusterName cluster = true
  | .hearing packet now => packet ∈ air ∧ packet.sentAt ≤ now ∧ now ≤ clock ∧ ∀ sighting ∈ heard, sighting.2 ≤ now

/-- What is on the air was sent, under a proper name. -/
def Flown (clock : Nat) (packet : Packet n) : Prop :=
  Beacon.isValidClusterName packet.cluster = true ∧ packet.sentAt ≤ clock

structure Sound (net : Network n) (i : Fin n) (clock : Nat) (air : List (Packet n)) (t : Station n) : Prop where
  table : Table net i clock t.discovery t.heard
  fits : t.point.Fits clock air t.heard
  flown : ∀ sighting ∈ t.heard, sighting.1 ∈ air
  own : ∀ packet ∈ t.announced, packet.sender = i ∧ packet.cluster = t.discovery.cluster

section Sound

variable {net : Network n} {i : Fin n} {clock : Nat} {air : List (Packet n)} {t : Station n}

theorem Point.Fits.cleared {point : Point n} {heard : List (Packet n × Nat)} (fits : point.Fits clock air heard) :
    point.Fits clock air [] := by
  cases point with
  | hearing packet now => exact ⟨fits.1,fits.2.1,fits.2.2.1,nofun⟩
  | _ => exact fits

theorem Point.Fits.later {point : Point n} {heard : List (Packet n × Nat)} (fits : point.Fits clock air heard)
    {clock' : Nat} (passes : clock ≤ clock') {air' : List (Packet n)} (grows : ∀ packet ∈ air, packet ∈ air') :
    point.Fits clock' air' heard := by
  cases point with
  | off => trivial
  | top => trivial
  | receiving => trivial
  | announcing now => exact le_trans fits passes
  | expiring now => exact le_trans fits passes
  | sending now cluster => exact ⟨le_trans fits.1 passes,fits.2⟩
  | hearing packet now => exact ⟨grows packet fits.1,fits.2.1,le_trans fits.2.2.1 passes,fits.2.2.2⟩

theorem Sound.later (sound : Sound net i clock air t) {clock' : Nat} (passes : clock ≤ clock') {air' : List (Packet n)}
    (grows : ∀ packet ∈ air, packet ∈ air') : Sound net i clock' air' t :=
  ⟨sound.table.later passes,sound.fits.later passes grows,fun sighting member => grows _ (sound.flown sighting member),sound.own⟩

/-- The loop goes on to another place. -/
theorem Sound.goes (sound : Sound net i clock air t) (point : Point n) (fits : point.Fits clock air t.heard)
    (running : Bool) (nextBeacon turned : Nat) : Sound net i clock air { t with running, point, nextBeacon, turned } :=
  ⟨sound.table,fits,sound.flown,sound.own⟩

theorem Sound.carries (sound : Sound net i clock air t) {point : Point n} (place : t.point = point) :
    point.Fits clock air t.heard :=
  place ▸ sound.fits

section Deeds

variable (sound : Sound net i clock air t)

include sound

theorem start_sound : Sound net i clock air (t.act net i clock .start).state := by
  rw [act]
  split
  · exact ⟨.cleared sound.table.self sound.table.valid rfl,trivial,List.forall_mem_nil _,List.forall_mem_nil _⟩
  · exact sound

theorem turn_sound : Sound net i clock air (t.act net i clock .turn).state := by
  rw [act]
  split
  · split
    · exact sound.goes .off trivial _ _ _
    · split
      · exact sound.goes (.announcing clock) (le_refl clock) _ _ _
      · exact sound.goes .receiving trivial _ _ _
  · exact sound

theorem encode_sound : Sound net i clock air (t.act net i clock .encode).state := by
  rw [act]
  split
  next now place => exact sound.goes (.sending now _) ⟨sound.carries place,sound.table.valid⟩ _ _ _
  · exact sound

theorem broadcast_sound : Sound net i clock air (t.act net i clock .broadcast).state := by
  rw [act]
  split
  next now cluster place =>
    refine ⟨sound.table,(sound.carries place).1,sound.flown,?_⟩
    dsimp only
    split
    next same =>
      rw [List.forall_mem_append,List.forall_mem_singleton]
      exact ⟨sound.own,rfl,same⟩
    · exact sound.own
  · exact sound

theorem expire_sound : Sound net i clock air (t.act net i clock .expire).state := by
  rw [act]
  split
  next now place => exact ⟨sound.table.sweep (sound.carries place),trivial,sound.flown,sound.own⟩
  · exact sound

theorem receive_sound (flies : ∀ packet ∈ air, Flown clock packet) {packet : Option (Packet n)}
    (possible : (Deed.receive packet).possible air = true) : Sound net i clock air (t.act net i clock (.receive packet)).state := by
  cases packet with
  | none =>
    rw [act]
    split
    · exact sound.goes .top trivial _ _ _
    · exact sound
  | some packet =>
    have member : packet ∈ air := of_decide_eq_true possible
    have earlier (sighting : Packet n × Nat) (seen : sighting ∈ t.heard) : sighting.2 ≤ clock := (sound.table.past sighting seen).2
    rw [act]
    split
    · exact sound.goes (.hearing packet clock) ⟨member,(flies packet member).2,le_refl clock,earlier⟩ _ _ _
    · exact sound

theorem handle_sound (flies : ∀ packet ∈ air, Flown clock packet) : Sound net i clock air (t.act net i clock .handle).state := by
  rw [act]
  split
  next packet now place =>
    obtain ⟨member,flown,past,newest⟩ := sound.carries place
    have valid := (flies packet member).1
    have cluster : (t.discovery.call (.onDatagram (net.site packet.sender).ip
        ((net.site packet.sender).wire packet.cluster) now)).state.cluster = t.discovery.cluster := by
      rw [Discovery.call,Site.decode_wire _ valid]
      dsimp only
      rw [Discovery.onDatagram_eq]
      split <;> rfl
    refine ⟨sound.table.hears valid flown past newest,trivial,?_,fun packet member => ?_⟩
    · rw [List.forall_mem_append,List.forall_mem_singleton]
      exact ⟨sound.flown,member⟩
    · rw [cluster]
      exact sound.own packet member
  · exact sound

theorem setCluster_sound (cluster : Str) : Sound net i clock air (t.act net i clock (.setCluster cluster)).state := by
  rw [act]
  split
  · exact sound
  next switches =>
    simp only [Bool.or_eq_true,Bool.not_eq_true',beq_iff_eq,not_or,Bool.not_eq_false] at switches
    refine ⟨.cleared ?_ ?_ ?_,sound.fits.cleared,List.forall_mem_nil _,List.forall_mem_nil _⟩
    all_goals rw [Discovery.call,Discovery.setCluster,if_neg switches.2]
    · exact sound.table.self
    · exact switches.1

theorem act_sound (flies : ∀ packet ∈ air, Flown clock packet) (deed : Deed n) (possible : deed.possible air = true) :
    Sound net i clock air (t.act net i clock deed).state := by
  cases deed with
  | start => exact start_sound sound
  | stop => exact sound.goes t.point sound.fits _ _ _
  | turn => exact turn_sound sound
  | encode => exact encode_sound sound
  | broadcast => exact broadcast_sound sound
  | expire => exact expire_sound sound
  | receive packet => exact receive_sound sound flies possible
  | handle => exact handle_sound sound flies
  | setCluster cluster => exact setCluster_sound sound cluster

end Deeds

end Sound

end Station

namespace Lan

variable {n : Nat} {net : Network n}

structure Sound (net : Network n) (s : Lan n) : Prop where
  station : ∀ i, (s.station i).Sound net i s.clock s.air
  air : ∀ packet ∈ s.air, Station.Flown s.clock packet

theorem step_sound {s : Lan n} (sound : Sound net s) (label : Label n) : Sound net (step net label s).state := by
  cases label with
  | pass ms =>
    refine ⟨fun i => (sound.station i).later (Nat.le_add_right _ _) fun _ member => member,fun packet member => ?_⟩
    exact ⟨(sound.air packet member).1,Nat.le_add_right_of_le (sound.air packet member).2⟩
  | act i deed =>
    rw [step]
    split
    next possible =>
      have grows (packet : Packet n) (member : packet ∈ s.air) : packet ∈ s.air ++ (s.station i).sends i s.clock deed :=
        List.mem_append_left _ member
      refine ⟨fun j => ?_,?_⟩
      · by_cases it : j = i
        · subst it
          change Station.Sound net j s.clock _ (Function.update s.station j _ j)
          rw [Function.update_self]
          exact (Station.act_sound (sound.station j) sound.air deed possible).later (le_refl _) grows
        · change Station.Sound net j s.clock _ (Function.update s.station i _ j)
          rw [Function.update_of_ne it]
          exact (sound.station j).later (le_refl _) grows
      · rw [List.forall_mem_append]
        refine ⟨sound.air,fun packet member => ?_⟩
        unfold Station.sends at member
        split at member
        · split at member
          next now cluster place =>
            have carried := (sound.station i).fits
            rw [place] at carried
            rw [List.mem_singleton.mp member]
            exact ⟨carried.2,le_refl _⟩
          · cases member
        · cases member
    · exact sound

theorem initial_sound (cluster : Fin n → ClusterName) : Sound net (initial net cluster) :=
  ⟨fun i => ⟨.cleared rfl (cluster i).2 rfl,trivial,nofun,nofun⟩,nofun⟩

theorem run_sound (cluster : Fin n → ClusterName) (labels : List (Label n)) :
    Sound net (run (step net) labels (initial net cluster)).state :=
  run_preserves (step net) (Sound net) (fun _ label sound => step_sound sound label) labels _ (initial_sound cluster)

/-- Of a pair only the broker with the smaller uuid dials. -/
theorem Sound.undialed {s : Lan n} (sound : Sound net s) {i j : Fin n} (below : (net.site i).uuid < (net.site j).uuid) :
    (net.site i).uuid ∉ (s.station j).discovery.dialed := by
  intro held
  obtain ⟨entry,found⟩ := Option.isSome_iff_exists.mp (AList.lookup_isSome.mpr held)
  have table := (sound.station j).table
  obtain ⟨-,-,-,-,above,-⟩ := table.genuine _ entry found
  rw [table.self] at above
  exact List.lt_asymm below above

def lettered (i : Fin 2) : Str := if i.val = 0 then str "a" else str "b"

theorem lettered_plain : ∀ i, Beacon.bar ∉ lettered i := by decide

theorem lettered_injective : Function.Injective lettered := by decide

theorem port_usable : (5555 : UInt16) ≠ 0 := by decide

theorem home_valid : Beacon.isValidClusterName (str "home") = true := by decide

/-- Two brokers on one host. -/
def pair : Network 2 := ⟨fun i => ⟨lettered i,str "ip",5555,0,lettered_plain i,port_usable⟩,lettered_injective⟩

def home : Fin 2 → ClusterName := fun _ => ⟨str "home",home_valid⟩

/-- Both announce themselves and hear each other. -/
def meeting (clock : Nat) : List (Label 2) :=
  (List.finRange 2).flatMap (fun i => [.act i .turn,.act i .encode,.act i .broadcast,.act i .expire]) ++
    (List.finRange 2).flatMap (fun i => [.act i (.receive (some ⟨i.rev,str "home",clock⟩)),.act i .handle])

/-- Four meetings, a second apart. -/
def meetings : List (Label 2) :=
  (List.finRange 2).map (fun i => .act i .start) ++
    (List.range 4).flatMap fun k => meeting (k * 1000) ++ [.pass 1000]

/-- A broker gets into another's table only by announcing itself in the cluster of the other,
to a broker with a smaller uuid; so of a pair at most one holds the other. -/
theorem dialed_was_announced (net : Network n) (cluster : Fin n → ClusterName) (labels : List (Label n)) (i : Fin n)
    (uuid : Str) (entry : PeerEntry)
    (dialed : ((run (step net) labels (initial net cluster)).state.station i).discovery.dialed.lookup uuid = some entry) :
    let s := (run (step net) labels (initial net cluster)).state
    ∃ packet ∈ s.air, packet.cluster = (s.station i).discovery.cluster ∧ packet.sentAt ≤ entry.lastSeen ∧
      entry.lastSeen ≤ s.clock ∧ (net.site packet.sender).uuid = uuid ∧ (net.site i).uuid < uuid ∧
      entry.address = (net.site packet.sender).address packet.cluster ∧
      (net.site i).uuid ∉ (s.station packet.sender).discovery.dialed := by
  intro s
  have sound : Sound net s := run_sound cluster labels
  have table := (sound.station i).table
  obtain ⟨packet,sighted,same,named,above,located⟩ := table.genuine uuid entry dialed
  rw [table.self] at above
  refine ⟨packet,(sound.station i).flown _ sighted,same,(table.past _ sighted).1,(table.past _ sighted).2,named,above,
    same ▸ located,sound.undialed (named ▸ above)⟩

theorem dialed_was_announced_meetings :
    let s := (run (step pair) meetings (initial pair home)).state
    ∃ packet ∈ s.air, packet.cluster = (s.station (Fin.last 1).rev).discovery.cluster ∧ packet.sentAt ≤ 3000 ∧ 3000 ≤ s.clock ∧
      (pair.site packet.sender).uuid = str "b" ∧ (pair.site (Fin.last 1).rev).uuid < str "b" ∧
      str "tcp://ip:5555" = (pair.site packet.sender).address packet.cluster ∧
      (pair.site (Fin.last 1).rev).uuid ∉ (s.station packet.sender).discovery.dialed :=
  dialed_was_announced pair home meetings (Fin.last 1).rev (str "b") ⟨str "tcp://ip:5555",3000⟩ (by decide +kernel)

end Lan

namespace Discovery

/-- An entry is as it was, or it was just heard. -/
theorem lookup_call_onDatagram {senderIp datagram : Str} {now : Nat} {d : Discovery} {uuid : Str} {entry : PeerEntry}
    (found : (d.call (.onDatagram senderIp datagram now)).state.dialed.lookup uuid = some entry) :
    entry.lastSeen = now ∨ d.dialed.lookup uuid = some entry := by
  rw [call] at found
  split at found
  · exact .inr found
  next heard decoded =>
    dsimp only at found
    rw [onDatagram_eq] at found
    split at found
    · by_cases it : uuid = heard.uuid
      · subst it
        rw [AList.lookup_insert] at found
        obtain rfl := Option.some.inj found
        exact .inl rfl
      · rw [AList.lookup_insert_ne it] at found
        exact .inr found
    · exact .inr found

/-- What a sweep leaves was heard within the timeout. -/
theorem lookup_expireStale {now : Nat} {d : Discovery} {uuid : Str} {entry : PeerEntry}
    (found : (d.expireStale now).1.dialed.lookup uuid = some entry) : now ≤ entry.lastSeen + peerTimeout := by
  have present : uuid ∈ (d.expireStale now).1.dialed := AList.lookup_isSome.mp (by rw [found]; rfl)
  rw [(d.expireStale_leaves now).unchanged uuid present] at found
  by_contra stale
  exact ((d.mem_expireStale now uuid).mp present).1 ((d.mem_lost now uuid).mpr ⟨entry,found,by omega⟩)

end Discovery

namespace Station

variable {n : Nat}

/-- When this station last announced itself, or began. -/
def last (t : Station n) : Nat := latest t.since (t.announced.map Packet.sentAt)

/-- Where the loop is with its beacons: between two of them, or at the one that was due when
this turn began. What is sent under an old name was encoded before the last switch. -/
def Point.Placed (turn : Nat) (cluster : Str) (turned nextBeacon last : Nat) : Point n → Prop
  | .off => False
  | .top | .receiving => turned ≤ nextBeacon ∧ nextBeacon ≤ turned + beaconInterval ∧ nextBeacon ≤ last + beaconInterval
  | .hearing _ now =>
    turned ≤ now ∧ turned ≤ nextBeacon ∧ nextBeacon ≤ turned + beaconInterval ∧ nextBeacon ≤ last + beaconInterval
  | .announcing now => turned = now ∧ now ≤ nextBeacon + turn ∧ nextBeacon ≤ last + beaconInterval
  | .sending now encoded =>
    turned = now ∧ now ≤ nextBeacon + turn ∧ nextBeacon ≤ last + beaconInterval ∧ (encoded = cluster ∨ now ≤ last)
  | .expiring now => turned = now ∧ now ≤ nextBeacon + turn ∧ now ≤ last

/-- How long it can take from one beacon to the next when a turn takes this long. -/
def period (turn : Nat) : Nat := beaconInterval + 2 * turn

structure Pacing (turn clock : Nat) (t : Station n) : Prop where
  brisk : t.turned ≤ clock ∧ clock ≤ t.turned + turn
  paced : Paced (period turn) t.since (t.announced.map Packet.sentAt)
  past : t.last ≤ clock
  placed : t.point.Placed turn t.discovery.cluster t.turned t.nextBeacon t.last
  fresh : ∀ uuid entry, t.discovery.dialed.lookup uuid = some entry →
    t.nextBeacon ≤ entry.lastSeen + Discovery.peerTimeout + beaconInterval

section Pacing

variable {net : Network n} {i : Fin n} {turn turned nextBeacon last clock : Nat} {t : Station n}

theorem Point.Placed.prompt {point : Point n} {cluster : Str} (placed : point.Placed turn cluster turned nextBeacon last) :
    turned ≤ nextBeacon + turn ∧ (nextBeacon ≤ last + beaconInterval ∨ turned ≤ last) := by
  cases point <;> simp only [Point.Placed] at placed <;> omega

/-- A switch of the cluster counts as an announcement here: the next is due no later. -/
theorem Point.Placed.renewed {point : Point n} {cluster : Str} (placed : point.Placed turn cluster turned nextBeacon last)
    (past : last ≤ clock) (began : turned ≤ clock) (cluster' : Str) :
    point.Placed turn cluster' turned nextBeacon clock := by
  cases point with
  | off => exact placed
  | sending now encoded => exact ⟨placed.1,placed.2.1,le_trans placed.2.2.1 (Nat.add_le_add_right past _),.inr (placed.1 ▸ began)⟩
  | _ =>
    simp only [Point.Placed] at placed ⊢
    omega

theorem Pacing.announces (pacing : Pacing turn clock t) : clock ≤ t.last + period turn := by
  have brisk := pacing.brisk
  have prompt := pacing.placed.prompt
  unfold period
  omega

theorem Pacing.keeps (pacing : Pacing turn clock t) {uuid : Str} {entry : PeerEntry}
    (found : t.discovery.dialed.lookup uuid = some entry) :
    clock ≤ entry.lastSeen + Discovery.peerTimeout + period turn := by
  have fresh := pacing.fresh uuid entry found
  have brisk := pacing.brisk
  have prompt := pacing.placed.prompt
  unfold period
  omega

/-- The loop goes on within its turn. -/
theorem Pacing.goes (pacing : Pacing turn clock t) {point : Point n}
    (placed : point.Placed turn t.discovery.cluster t.turned t.nextBeacon t.last) : Pacing turn clock { t with point } :=
  ⟨pacing.brisk,pacing.paced,pacing.past,placed,pacing.fresh⟩

/-- It begins another. -/
theorem Pacing.turns (pacing : Pacing turn clock t) {point : Point n}
    (placed : point.Placed turn t.discovery.cluster clock t.nextBeacon t.last) :
    Pacing turn clock { t with turned := clock, point } :=
  ⟨⟨le_refl _,Nat.le_add_right _ _⟩,pacing.paced,pacing.past,placed,pacing.fresh⟩

section Deeds

/-- A loop that is over keeps no pace. -/
def Keeps (turn clock : Nat) (t : Station n) : Prop := t.point ≠ .off → Pacing turn clock t

variable (keeps : Keeps turn clock t)

include keeps

theorem Keeps.at {point : Point n} (place : t.point = point) (on : point ≠ .off) :
    Pacing turn clock t ∧ point.Placed turn t.discovery.cluster t.turned t.nextBeacon t.last :=
  have pacing := keeps (place ▸ on)
  ⟨pacing,place ▸ pacing.placed⟩

theorem start_paced : Keeps turn clock (t.act net i clock .start).state := by
  rw [act]
  split
  · intro _
    refine ⟨⟨le_refl _,Nat.le_add_right _ _⟩,trivial,le_refl _,⟨le_refl _,Nat.le_add_right _ _,Nat.le_add_right _ _⟩,?_⟩
    intro uuid entry found
    cases found
  · exact keeps

theorem turn_paced : Keeps turn clock (t.act net i clock .turn).state := by
  rw [act]
  split
  next place =>
    obtain ⟨pacing,ahead,near,due⟩ := keeps.at place (by rintro ⟨⟩)
    have brisk := pacing.brisk
    split
    · exact fun on => absurd rfl on
    · split
      · exact fun _ => pacing.turns ⟨rfl,by omega,due⟩
      · exact fun _ => pacing.turns ⟨by omega,by omega,due⟩
  · exact keeps

theorem encode_paced : Keeps turn clock (t.act net i clock .encode).state := by
  rw [act]
  split
  next now place =>
    obtain ⟨pacing,began,prompt,due⟩ := keeps.at place (by rintro ⟨⟩)
    exact fun _ => pacing.goes ⟨began,prompt,due,.inl rfl⟩
  · exact keeps

theorem broadcast_paced : Keeps turn clock (t.act net i clock .broadcast).state := by
  rw [act]
  split
  next now cluster place =>
    obtain ⟨pacing,began,prompt,-,current⟩ := keeps.at place (by rintro ⟨⟩)
    intro _
    dsimp only
    split
    · have last_now : latest t.since ((t.announced ++ [(⟨i,cluster,clock⟩ : Packet n)]).map Packet.sentAt) = clock := by
        rw [List.map_append]
        exact latest_snoc _ _ _
      refine ⟨pacing.brisk,?_,le_of_eq last_now,⟨began,prompt,?_⟩,pacing.fresh⟩
      · rw [List.map_append]
        exact paced_snoc pacing.paced pacing.past pacing.announces
      · have brisk := pacing.brisk
        exact le_of_le_of_eq (by omega) last_now.symm
    next foreign => exact pacing.goes ⟨began,prompt,current.resolve_left foreign⟩
  · exact keeps

theorem expire_paced : Keeps turn clock (t.act net i clock .expire).state := by
  rw [act]
  split
  next now place =>
    obtain ⟨pacing,began,prompt,after⟩ := keeps.at place (by rintro ⟨⟩)
    intro _
    refine ⟨pacing.brisk,pacing.paced,pacing.past,⟨?_,?_,Nat.add_le_add_right after _⟩,fun uuid entry found => ?_⟩
    · change t.turned ≤ now + _
      omega
    · change now + _ ≤ t.turned + _
      omega
    · exact Nat.add_le_add_right (Discovery.lookup_expireStale found) _
  · exact keeps

theorem receive_paced (packet : Option (Packet n)) : Keeps turn clock (t.act net i clock (.receive packet)).state := by
  cases packet with
  | none =>
    rw [act]
    split
    next place =>
      obtain ⟨pacing,placed⟩ := keeps.at place (by rintro ⟨⟩)
      exact fun _ => pacing.goes placed
    · exact keeps
  | some packet =>
    rw [act]
    split
    next place =>
      obtain ⟨pacing,placed⟩ := keeps.at place (by rintro ⟨⟩)
      exact fun _ => pacing.goes ⟨pacing.brisk.1,placed⟩
    · exact keeps

theorem handle_paced : Keeps turn clock (t.act net i clock .handle).state := by
  rw [act]
  split
  next packet now place =>
    obtain ⟨pacing,began,ahead,near,due⟩ := keeps.at place (by rintro ⟨⟩)
    refine fun _ => ⟨pacing.brisk,pacing.paced,pacing.past,⟨ahead,near,due⟩,fun uuid entry found => ?_⟩
    change t.nextBeacon ≤ _
    rcases Discovery.lookup_call_onDatagram found with new | old
    · omega
    · exact pacing.fresh uuid entry old
  · exact keeps

theorem setCluster_paced (cluster : Str) : Keeps turn clock (t.act net i clock (.setCluster cluster)).state := by
  rw [act]
  split
  · exact keeps
  next switches =>
    intro on
    have pacing := keeps on
    refine ⟨pacing.brisk,trivial,le_refl _,pacing.placed.renewed pacing.past pacing.brisk.1 _,fun uuid entry found => ?_⟩
    simp only [Bool.or_eq_true,beq_iff_eq,not_or] at switches
    rw [Discovery.call,Discovery.setCluster,if_neg switches.2] at found
    cases found

theorem act_paced (deed : Deed n) : Keeps turn clock (t.act net i clock deed).state := by
  cases deed with
  | start => exact start_paced keeps
  | stop => exact fun on => ⟨(keeps on).brisk,(keeps on).paced,(keeps on).past,(keeps on).placed,(keeps on).fresh⟩
  | turn => exact turn_paced keeps
  | encode => exact encode_paced keeps
  | broadcast => exact broadcast_paced keeps
  | expire => exact expire_paced keeps
  | receive packet => exact receive_paced keeps packet
  | handle => exact handle_paced keeps
  | setCluster cluster => exact setCluster_paced keeps cluster

end Deeds

theorem Pacing.later (pacing : Pacing turn clock t) {clock' : Nat} (passes : clock ≤ clock')
    (brisk : clock' ≤ t.turned + turn) : Pacing turn clock' t :=
  ⟨⟨le_trans pacing.brisk.1 passes,brisk⟩,pacing.paced,le_trans pacing.past passes,pacing.placed,pacing.fresh⟩

end Pacing

end Station

namespace Lan

variable {n : Nat} {net : Network n} {turn : Nat}

/-- No turn of a loop takes longer than this. -/
def Brisk (turn : Nat) (s : Lan n) : Prop :=
  ∀ i, (s.station i).point ≠ .off → s.clock ≤ (s.station i).turned + turn

instance (turn : Nat) (s : Lan n) : Decidable (Brisk turn s) := inferInstanceAs (Decidable (∀ _, _ → _))

/-- Every state that the labels lead through. -/
def AlwaysBrisk (net : Network n) (turn : Nat) (labels : List (Label n)) (s : Lan n) : Prop :=
  Always (step net) (fun s label => Brisk turn (step net label s).state) labels s

instance (turn : Nat) (labels : List (Label n)) (s : Lan n) : Decidable (AlwaysBrisk net turn labels s) :=
  inferInstanceAs (Decidable (Always _ _ _ _))

def Paces (turn : Nat) (s : Lan n) : Prop := ∀ i, (s.station i).Keeps turn s.clock

theorem step_paces {s : Lan n} {label : Label n} (brisk : Brisk turn (step net label s).state) (paces : Paces turn s) :
    Paces turn (step net label s).state := by
  cases label with
  | pass ms => exact fun i on => (paces i on).later (Nat.le_add_right _ _) (brisk i on)
  | act i deed =>
    clear brisk
    rw [step]
    split
    · intro j
      by_cases it : j = i
      · subst it
        change Station.Keeps turn s.clock (Function.update s.station j _ j)
        rw [Function.update_self]
        exact Station.act_paced (paces j) deed
      · change Station.Keeps turn s.clock (Function.update s.station i _ j)
        rw [Function.update_of_ne it]
        exact paces j
    · exact paces

theorem run_paces {cluster : Fin n → ClusterName} {labels : List (Label n)}
    (brisk : AlwaysBrisk net turn labels (initial net cluster)) :
    Paces turn (run (step net) labels (initial net cluster)).state :=
  run_invariant (step net) (Paces turn) (fun _ _ => step_paces) labels _ brisk fun _ on => absurd rfl on

/-- Of the announcements of one broker, no more than `lost` in a row fail to be heard by
another broker of its cluster when `delay` has passed. -/
def Reaches (delay lost : Nat) (s : Lan n) : Prop :=
  ∀ i j, i ≠ j → ∀ m < (s.station j).announced.length,
    let window := ((s.station j).announced.drop m).take (lost + 1)
    window.length = lost + 1 → (∀ packet ∈ window, (s.station i).since < packet.sentAt ∧ packet.sentAt + delay < s.clock) →
      ∃ sighting ∈ (s.station i).heard, sighting.1 ∈ window

instance (delay lost : Nat) (s : Lan n) : Decidable (Reaches delay lost s) :=
  inferInstanceAs (Decidable (∀ _ _, _ → ∀ _ < _, _ → _ → _))

/-- The broker has been up in its cluster for a while. -/
def Settled (span : Nat) (i : Fin n) (s : Lan n) : Prop :=
  (s.station i).point ≠ .off ∧ (s.station i).since + span < s.clock

section Knows

variable {s : Lan n} {i j : Fin n}

/-- Of the announcements that are surely through by now, one of the last few was heard, and not
too long ago for the timeout. -/
theorem Reaches.lately {delay lost : Nat} (reaches : Reaches delay lost s) (sound : Sound net s) (paces : Paces turn s)
    (apart : i ≠ j) (first : Settled (delay + (lost + 1) * Station.period turn) i s)
    (second : Settled (delay + (lost + 1) * Station.period turn) j s) :
    ∃ packet ∈ (s.station j).announced, ∃ seen, (packet,seen) ∈ (s.station i).heard ∧
      s.clock ≤ seen + (delay + (lost + 1) * Station.period turn) := by
  have pacing := paces j second.1
  have elapsed := first.2
  obtain ⟨m,whole,near⟩ := paced_recent pacing.paced pacing.announces delay (lost + 1) second.2
  rw [← List.map_drop,← List.map_take] at whole near
  rw [List.length_map] at whole
  have inside : m < (s.station j).announced.length := by
    rw [List.length_take,List.length_drop] at whole
    omega
  have through (packet : Packet n) (member : packet ∈ ((s.station j).announced.drop m).take (lost + 1)) :
      packet.sentAt + delay < s.clock ∧ s.clock ≤ packet.sentAt + (delay + (lost + 1) * Station.period turn) :=
    near _ (List.mem_map_of_mem member)
  have flying (packet : Packet n) (member : packet ∈ ((s.station j).announced.drop m).take (lost + 1)) :
      (s.station i).since < packet.sentAt ∧ packet.sentAt + delay < s.clock := by
    have := through packet member
    omega
  obtain ⟨⟨packet,seen⟩,sighted,member⟩ := reaches i j apart m inside whole flying
  have sent := (through packet member).2
  have flown : packet.sentAt ≤ seen := ((sound.station i).table.past _ sighted).1
  exact ⟨packet,List.mem_of_mem_drop (List.mem_of_mem_take member),seen,sighted,by omega⟩

theorem Reaches.dialed {delay lost : Nat} (reaches : Reaches delay lost s) (sound : Sound net s) (paces : Paces turn s)
    (few : n ≤ 65) (tolerable : delay + (lost + 1) * Station.period turn ≤ Discovery.peerTimeout)
    (first : Settled (delay + (lost + 1) * Station.period turn) i s)
    (second : Settled (delay + (lost + 1) * Station.period turn) j s)
    (same : (s.station i).discovery.cluster = (s.station j).discovery.cluster)
    (below : (net.site i).uuid < (net.site j).uuid) : (net.site j).uuid ∈ (s.station i).discovery.dialed := by
  have apart : i ≠ j := by
    rintro rfl
    exact List.lt_irrefl _ below
  obtain ⟨packet,announced,seen,sighted,soon⟩ := reaches.lately sound paces apart first second
  have table := (sound.station i).table
  have own := (sound.station j).own packet announced
  have above : (s.station i).discovery.selfUuid < (net.site packet.sender).uuid := by
    rw [table.self,own.1]
    exact below
  obtain ⟨entry,found,-⟩ := table.recent few packet seen sighted (own.2.trans same.symm) above (by omega)
  rw [own.1] at found
  exact AList.lookup_isSome.mp (by rw [found]; rfl)

end Knows

/-- As long as the announcements get through often enough for the timeout, of any two brokers
of a cluster that have been there for a while the one with the smaller uuid has the other in
its table, and only that one. -/
theorem lan_tables_complete (net : Network n) (few : n ≤ 65) (cluster : Fin n → ClusterName) (labels : List (Label n))
    (turn delay lost : Nat) (tolerable : delay + (lost + 1) * Station.period turn ≤ Discovery.peerTimeout)
    (brisk : AlwaysBrisk net turn labels (initial net cluster))
    (reaches : Reaches delay lost (run (step net) labels (initial net cluster)).state) :
    let s := (run (step net) labels (initial net cluster)).state
    ∀ i j, Settled (delay + (lost + 1) * Station.period turn) i s → Settled (delay + (lost + 1) * Station.period turn) j s →
      (s.station i).discovery.cluster = (s.station j).discovery.cluster → (net.site i).uuid < (net.site j).uuid →
      (net.site j).uuid ∈ (s.station i).discovery.dialed ∧ (net.site i).uuid ∉ (s.station j).discovery.dialed := by
  intro s i j first second same below
  have sound : Sound net s := run_sound cluster labels
  exact ⟨reaches.dialed sound (run_paces brisk) few tolerable first second same below,sound.undialed below⟩

theorem lan_tables_complete_meetings :
    let s := (run (step pair) meetings (initial pair home)).state
    str "b" ∈ (s.station (Fin.last 1).rev).discovery.dialed ∧ str "a" ∉ (s.station (Fin.last 1)).discovery.dialed :=
  lan_tables_complete pair (by decide) home meetings 1000 0 0 (by decide) (by decide +kernel) (by decide +kernel)
    (Fin.last 1).rev (Fin.last 1) (by unfold Settled; decide +kernel) (by unfold Settled; decide +kernel)
    (by decide +kernel) (by decide +kernel)

/-- A broker that falls silent, or announces itself in another cluster, leaves the tables: what
is in one was announced in its cluster, and heard not much longer ago than the timeout. -/
theorem dialed_was_heard_lately (net : Network n) (cluster : Fin n → ClusterName) (labels : List (Label n)) (turn : Nat)
    (brisk : AlwaysBrisk net turn labels (initial net cluster)) :
    let s := (run (step net) labels (initial net cluster)).state
    ∀ i, (s.station i).point ≠ .off → ∀ uuid ∈ (s.station i).discovery.dialed,
      ∃ sighting ∈ (s.station i).heard, (net.site sighting.1.sender).uuid = uuid ∧
        sighting.1.cluster = (s.station i).discovery.cluster ∧
        s.clock ≤ sighting.2 + Discovery.peerTimeout + Station.period turn := by
  intro s i on uuid dialed
  have sound : Sound net s := run_sound cluster labels
  obtain ⟨entry,found⟩ := Option.isSome_iff_exists.mp (AList.lookup_isSome.mpr dialed)
  obtain ⟨packet,sighted,same,named,-,-⟩ := (sound.station i).table.genuine uuid entry found
  exact ⟨_,sighted,named,same,(run_paces brisk i on).keeps found⟩

theorem dialed_was_heard_lately_meetings :
    let s := (run (step pair) meetings (initial pair home)).state
    ∃ sighting ∈ (s.station (Fin.last 1).rev).heard, (pair.site sighting.1.sender).uuid = str "b" ∧
      sighting.1.cluster = (s.station (Fin.last 1).rev).discovery.cluster ∧
      s.clock ≤ sighting.2 + Discovery.peerTimeout + Station.period 1000 :=
  dialed_was_heard_lately pair home meetings 1000 (by decide +kernel) (Fin.last 1).rev (by decide +kernel) (str "b")
    (by decide +kernel)

end Lan

end Wisp
