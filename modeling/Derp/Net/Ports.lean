import Derp.Net.Calls
import Mathlib.Data.Fintype.Card

/-!
# How a port is found

A host hands out its ports in turn, from the first ephemeral port to the last
one and around again, and passes over those that are taken.  There are more
ports than sockets, so the search ends early and with a port.
-/

namespace Derp

theorem Addr.sameName_iff (a other : Addr) :
    a.sameName other = true ↔ a.family = other.family ∧
      (a.family = .inet ∧ a.port = other.port ∨
        a.family = .unix ∧ a.path = other.path) := by
  unfold Addr.sameName
  cases a.family <;> simp

/-- A socket with a name that others may not take. -/
def Sock.Named (d : Sock) : Prop :=
  d.state = .bound ∨ d.state = .listening

instance (d : Sock) : Decidable d.Named := by
  unfold Sock.Named
  infer_instance

/-- The port that a host hands out after `port`. -/
def portAfter (port : UInt16) : UInt16 :=
  if port = 65535 then firstEphemeral else port + 1

/-- How many ports a host hands out in turn. -/
def portCount : Nat := 65535 - firstEphemeral.toNat + 1

/-- Where the turn stands after a number of ports. -/
theorem toNat_portAfter_iterate
    {port : UInt16}
    (ephemeral : firstEphemeral ≤ port)
    (count : Nat) :
    (portAfter^[count] port).toNat = firstEphemeral.toNat +
      (port.toNat - firstEphemeral.toNat + count) % portCount := by
  have first : firstEphemeral.toNat = 49152 := rfl
  have all : portCount = 16384 := rfl
  have least : 49152 ≤ port.toNat := UInt16.le_iff_toNat_le.mp ephemeral
  have most : port.toNat < 65536 := port.toNat_lt
  rw [first, all]
  induction count with
  | zero =>
      rw [Function.iterate_zero_apply, Nat.mod_eq_of_lt (by omega)]
      omega
  | succ count inductionHypothesis =>
      rw [Function.iterate_succ_apply']
      generalize portAfter^[count] port = here at inductionHypothesis
      unfold portAfter
      split
      · next last =>
          rw [last, show (65535 : UInt16).toNat = 65535 from rfl]
            at inductionHypothesis
          rw [first]
          omega
      · next notLast =>
          have before : here.toNat ≠ 65535 := by
            intro same
            exact notLast (UInt16.toNat_inj.mp same)
          have below : here.toNat < 65536 := here.toNat_lt
          rw [UInt16.toNat_add, show (1 : UInt16).toNat = 1 from rfl,
            Nat.mod_eq_of_lt (by omega)]
          omega

theorem firstEphemeral_le_portAfter
    {port : UInt16}
    (ephemeral : firstEphemeral ≤ port) : firstEphemeral ≤ portAfter port := by
  rw [UInt16.le_iff_toNat_le]
  have after := toNat_portAfter_iterate ephemeral 1
  rw [Function.iterate_one] at after
  omega

theorem firstEphemeral_le_iterate
    {port : UInt16}
    (ephemeral : firstEphemeral ≤ port)
    (count : Nat) : firstEphemeral ≤ portAfter^[count] port := by
  rw [UInt16.le_iff_toNat_le, toNat_portAfter_iterate ephemeral]
  omega

/-- No port comes twice in one turn. -/
theorem portAfter_iterate_injective
    {port : UInt16}
    (ephemeral : firstEphemeral ≤ port)
    {count more : Nat}
    (within : count < portCount)
    (within' : more < portCount)
    (same : portAfter^[count] port = portAfter^[more] port) :
    count = more := by
  have first := toNat_portAfter_iterate ephemeral count
  have second := toNat_portAfter_iterate ephemeral more
  have all : portCount = 16384 := rfl
  rw [same, second] at first
  rw [all] at first within within'
  omega

namespace Net

variable {net : Net} {host : Nat} {kind : Kind}

theorem nameTaken_iff (net : Net) (host : Nat) (kind : Kind) (addr : Addr) :
    net.nameTaken host kind addr = true ↔
      ∃ i, (net.socks i).Named ∧ (net.socks i).host = host ∧
        (net.socks i).kind = kind ∧
        (net.socks i).localName.sameName addr = true := by
  unfold nameTaken Sock.Named
  simp [List.any_eq_true, and_assoc]

theorem setNextPort_setNextPort (net : Net) (host : Nat) (port later : UInt16) :
    (net.setNextPort host port).setNextPort host later =
      net.setNextPort host later := by
  unfold setNextPort setHosts
  dsimp only
  rw [List.modify_modify_eq]
  rfl

theorem hostAt_setNextPort
    (here : host < net.hosts.length)
    (port : UInt16) :
    ((net.setNextPort host port).hostAt host).nextPort = port := by
  unfold hostAt setNextPort setHosts
  dsimp only
  rw [List.getD_eq_getElem _ _ (by simpa using here), List.getElem_modify_eq]

/-- A turn leaves the hosts' addresses alone. -/
theorem addr_setNextPort
    (net : Net)
    (host : Nat)
    (port : UInt16)
    (other : Nat) :
    ((net.setNextPort host port).hostAt other).addr =
      (net.hostAt other).addr := by
  unfold setNextPort setHosts hostAt
  simp only [List.getD_eq_getElem?_getD, List.getElem?_modify]
  cases net.hosts[other]? with
  | none => rfl
  | some record => by_cases same : host = other <;> simp [same]

theorem nameTaken_of_socks
    {later : Net}
    (same : later.socks = net.socks)
    (host : Nat)
    (kind : Kind)
    (addr : Addr) :
    later.nameTaken host kind addr = net.nameTaken host kind addr := by
  unfold nameTaken
  rw [same]

/-- The search passes over taken ports. -/
theorem tryPorts_of_taken
    (here : host < net.hosts.length)
    {passed rounds : Nat}
    (taken : ∀ earlier < passed, net.nameTaken host kind
      (Addr.inet 0 (portAfter^[earlier] (net.hostAt host).nextPort)) = true) :
    0 < passed →
    tryPorts (passed + rounds) net host kind =
      tryPorts rounds (net.setNextPort host
        (portAfter^[passed] (net.hostAt host).nextPort)) host kind := by
  intro positive
  induction passed, positive using Nat.le_induction generalizing rounds with
  | base =>
      have first := taken 0 (by decide)
      rw [Function.iterate_zero_apply] at first
      rw [Nat.add_comm, tryPorts]
      exact if_pos first
  | succ passed positive inductionHypothesis =>
      have next : net.nameTaken host kind (Addr.inet 0
          (portAfter^[passed] (net.hostAt host).nextPort)) = true :=
        taken passed (by omega)
      rw [Nat.add_assoc, inductionHypothesis (fun earlier before =>
        taken earlier (by omega)), Nat.add_comm 1 rounds, tryPorts,
        hostAt_setNextPort here, setNextPort_setNextPort,
        Function.iterate_succ_apply']
      exact if_pos next

/-- Some port among the next ones is not taken: there are fewer sockets. -/
theorem exists_untaken
    (ephemeral : firstEphemeral ≤ (net.hostAt host).nextPort)
    (kind : Kind) :
    ∃ passed ≤ maxSockets, net.nameTaken host kind
      (Addr.inet 0 (portAfter^[passed] (net.hostAt host).nextPort)) = false := by
  by_contra none
  push Not at none
  have owner : ∀ passed : Fin (maxSockets + 1), ∃ i : SockId,
      (net.socks i).localName.port =
        portAfter^[passed.val] (net.hostAt host).nextPort := by
    intro passed
    have taken := none passed.val (Nat.lt_succ_iff.mp passed.isLt)
    rw [ne_eq, Bool.not_eq_false] at taken
    obtain ⟨i, -, -, -, same⟩ := (nameTaken_iff _ _ _ _).mp taken
    rw [Addr.sameName_iff] at same
    obtain ⟨isInet, ⟨-, port⟩ | ⟨isUnix, -⟩⟩ := same
    · exact ⟨i, port⟩
    · rw [isInet] at isUnix
      cases isUnix
  choose slot named using owner
  have injective : Function.Injective slot := by
    intro first second same
    have port := (named first).symm.trans (same ▸ named second)
    have few : maxSockets + 1 ≤ portCount := by decide
    exact Fin.ext (portAfter_iterate_injective ephemeral
      (first.isLt.trans_le few) (second.isLt.trans_le few) port)
  have count := Fintype.card_le_of_injective slot injective
  rw [Fintype.card_fin, Fintype.card_fin] at count
  omega

/-- The port a host hands out next for a kind of sockets: the first one in
turn that is not taken. -/
structure NextFree
    (net : Net)
    (host : Nat)
    (kind : Kind)
    (port : UInt16)
    (passed : Nat) : Prop where
  turn : port = portAfter^[passed] (net.hostAt host).nextPort
  few : passed ≤ maxSockets
  free : net.nameTaken host kind (Addr.inet 0 port) = false
  taken : ∀ earlier < passed, net.nameTaken host kind
    (Addr.inet 0 (portAfter^[earlier] (net.hostAt host).nextPort)) = true

theorem exists_nextFree
    (ephemeral : firstEphemeral ≤ (net.hostAt host).nextPort)
    (kind : Kind) : ∃ port passed, net.NextFree host kind port passed := by
  obtain ⟨bound, few, untaken⟩ := exists_untaken ephemeral kind
  obtain ⟨passed, least⟩ : ∃ passed, passed = Nat.find
    (p := fun passed => net.nameTaken host kind (Addr.inet 0
      (portAfter^[passed] (net.hostAt host).nextPort)) = false)
    ⟨bound, untaken⟩ := ⟨_, rfl⟩
  refine ⟨_, passed, rfl, ?_, ?_, ?_⟩
  · rw [least]
    exact (Nat.find_min' _ untaken).trans few
  · rw [least]
    exact Nat.find_spec (p := fun passed => net.nameTaken host kind
      (Addr.inet 0 (portAfter^[passed] (net.hostAt host).nextPort)) = false)
      ⟨bound, untaken⟩
  · intro earlier before
    rw [least] at before
    simpa using Nat.find_min _ before

/-- The search finds the next free port, and moves the turn behind it. -/
theorem NextFree.ephemeralPort
    {port : UInt16}
    {passed : Nat}
    (next : net.NextFree host kind port passed)
    (here : host < net.hosts.length) :
    net.ephemeralPort host kind =
      (net.setNextPort host (portAfter port), .ok port) := by
  obtain ⟨turn, few, free, taken⟩ := next
  have enough : passed < portCount := few.trans_lt (by decide)
  obtain ⟨rounds, split⟩ : ∃ rounds, portCount = passed + (rounds + 1) :=
    ⟨portCount - passed - 1, by omega⟩
  -- The last round starts where the taken ports have been passed over.
  have last : ∀ before : Net, before.socks = net.socks →
      (before.hostAt host).nextPort = port →
      before.setNextPort host (portAfter port) =
        net.setNextPort host (portAfter port) →
      tryPorts (rounds + 1) before host kind =
        (net.setNextPort host (portAfter port), .ok port) := by
    intro before socks at' moved
    have untaken : (before.setNextPort host (portAfter port)).nameTaken host
        kind (Addr.inet 0 port) = false := by
      rw [← free]
      exact nameTaken_of_socks socks _ _ _
    rw [tryPorts, at']
    change (if (before.setNextPort host (portAfter port)).nameTaken host kind
      (Addr.inet 0 port) = true then _ else _) = _
    rw [if_neg (by rw [untaken]; decide)]
    exact congrArg (·, Except.ok port) moved
  unfold Net.ephemeralPort
  change tryPorts portCount net host kind = _
  rw [split]
  rcases Nat.eq_zero_or_pos passed with none | positive
  · subst none
    rw [Nat.zero_add]
    exact last net rfl (by rw [turn]; rfl) rfl
  · rw [tryPorts_of_taken here taken positive]
    refine last _ rfl ?_ (setNextPort_setNextPort _ _ _ _)
    rw [hostAt_setNextPort here, turn]

/-- The first port in turn that is not taken, as the state tells it. -/
def nextFreePort (net : Net) (host : Nat) (kind : Kind) : UInt16 :=
  (((List.range (maxSockets + 1)).map fun passed =>
      portAfter^[passed] (net.hostAt host).nextPort).find?
    fun port => !net.nameTaken host kind (Addr.inet 0 port)).getD 0

theorem NextFree.eq_nextFreePort
    {port : UInt16}
    {passed : Nat}
    (next : net.NextFree host kind port passed) :
    port = net.nextFreePort host kind := by
  obtain ⟨turn, few, free, taken⟩ := next
  have found : ((List.range (maxSockets + 1)).find? fun passed =>
      !net.nameTaken host kind
        (Addr.inet 0 (portAfter^[passed] (net.hostAt host).nextPort))) =
      some passed := by
    rw [List.find?_range_eq_some]
    refine ⟨by rw [← turn, free]; rfl, List.mem_range.mpr (by omega), ?_⟩
    intro earlier before
    rw [taken earlier before]
    rfl
  unfold nextFreePort
  rw [List.find?_map]
  change port = (Option.map _ (List.find? (fun passed => !net.nameTaken host
    kind (Addr.inet 0 (portAfter^[passed] (net.hostAt host).nextPort))) _)).getD 0
  rw [found]
  exact turn

end Net
end Derp
