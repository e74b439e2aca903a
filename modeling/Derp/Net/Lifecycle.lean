import Derp.Net.References

/-!
# The life of a socket slot

Every call keeps the references between sockets in order.  So a slot is in use
exactly as long as something refers to it, connections are handed out in the
order they were made, and once every process has died every slot is free.
-/

namespace Derp

/-- What is left of a record when the rest of its life is over. -/
def Sock.stateless (d : Sock) : Sock :=
  d.control.setState .free

namespace Net

variable
  {net later : Net}
  {pending : Finset SockId}
  {queues : SockId → List SockId}
  {sock peer far : SockId}
  {pid : Nat}

theorem setIdent_self
    (unnamed : net.idents sock = 0) : net.setIdent sock 0 = net := by
  unfold setIdent
  rw [Function.update_eq_self_iff.mpr unnamed.symm]

/-! ## What a release leaves alone -/

/-- A step that changes traffic and lets sockets go. -/
structure StatesOnly (net later : Net) : Prop where
  socks : ∀ i, (later.socks i).stateless = (net.socks i).stateless
  states : ∀ i, (later.socks i).state = (net.socks i).state ∨
    (later.socks i).state = .free ∨ (later.socks i).state = .closed
  fdrefs : later.fdrefs = net.fdrefs
  latency : later.latencyNs = net.latencyNs

theorem StatesOnly.refl (net : Net) : StatesOnly net net :=
  ⟨fun _ => rfl, fun _ => .inl rfl, rfl, rfl⟩

theorem StatesOnly.trans
    {middle : Net}
    (first : StatesOnly net middle)
    (second : StatesOnly middle later) : StatesOnly net later :=
  ⟨fun i => (second.socks i).trans (first.socks i),
    fun i => by grind [first.states i, second.states i],
    second.fdrefs.trans first.fdrefs, second.latency.trans first.latency⟩

theorem StatesOnly.of_control
    (same : later.control = net.control) : StatesOnly net later where
  socks := by
    intro i
    have view := congrArg
      (fun view : Net => (view.socks i).setState .free) same
    exact view
  states := by
    intro i
    have view := congrArg (fun view : Net => (view.socks i).state) same
    exact .inl view
  fdrefs := by
    have view := congrArg (fun view : Net => view.fdrefs) same
    exact view
  latency := by
    have view := congrArg (fun view : Net => view.latencyNs) same
    exact view

theorem StatesOnly.setState
    (net : Net)
    (sock : SockId)
    {state : SockState}
    (isOver : state = .free ∨ state = .closed) :
    StatesOnly net (net.setState sock state) where
  socks := by
    intro i
    by_cases same : i = sock
    · subst same
      unfold Net.setState
      rw [modifySock_socks_self]
      rfl
    · unfold Net.setState
      rw [modifySock_socks_of_ne net _ same]
  states := by
    intro i
    unfold Net.setState
    rw [modifySock_socks]
    split
    · exact .inr isOver
    · exact .inl rfl
  fdrefs := rfl
  latency := rfl

theorem StatesOnly.resetQueued (net : Net) (far : SockId) :
    StatesOnly net (net.resetQueued far) := by
  unfold Net.resetQueued
  split
  · exact StatesOnly.refl net
  · dsimp only
    split
    · exact (StatesOnly.setState _ _ (.inl rfl)).trans
        (StatesOnly.setState _ _ (.inl rfl))
    · refine StatesOnly.trans ?_ (StatesOnly.setState _ _ (.inr rfl))
      apply StatesOnly.of_control
      rw [control_writeEvent, control_deliver]

theorem StatesOnly.foldl_resetQueued (queue : List SockId) (net : Net) :
    StatesOnly net (queue.foldl Net.resetQueued net) := by
  induction queue generalizing net with
  | nil => exact StatesOnly.refl net
  | cons far later inductionHypothesis =>
      rw [List.foldl_cons]
      exact (StatesOnly.resetQueued net far).trans
        (inductionHypothesis (net.resetQueued far))

theorem StatesOnly.releaseConnected (net : Net) (sock : SockId) :
    StatesOnly net (net.releaseConnected sock) := by
  unfold Net.releaseConnected
  split
  · exact StatesOnly.refl net
  · dsimp only
    split
    · exact (StatesOnly.setState _ _ (.inl rfl)).trans
        (StatesOnly.setState _ _ (.inl rfl))
    · refine StatesOnly.trans ?_ (StatesOnly.setState _ _ (.inr rfl))
      apply StatesOnly.of_control
      rw [control_writeEvent]
      split
      · rfl
      · rw [control_deliver]

theorem StatesOnly.release (net : Net) (sock : SockId) :
    StatesOnly net (net.release sock) := by
  have ended : ∀ net : Net, StatesOnly net (net.setIdent sock 0) :=
    fun net => ⟨fun _ => rfl, fun _ => .inl rfl, rfl, rfl⟩
  unfold Net.release
  dsimp only
  refine StatesOnly.trans ?_ (ended _)
  split
  · exact (StatesOnly.foldl_resetQueued _ net).trans
      (StatesOnly.setState _ _ (.inl rfl))
  · exact StatesOnly.releaseConnected net sock
  · exact StatesOnly.setState net sock (.inl rfl)

theorem StatesOnly.backlogs
    (same : StatesOnly net later) : later.backlogs = net.backlogs := by
  funext i
  have view := congrArg Sock.backlog (same.socks i)
  exact view

/-! ## A release keeps the references in order -/

/-- A queued connection is reset when its listener goes away. -/
theorem Linked.resetQueued
    (linked : net.Linked pending queues)
    {listener : SockId}
    {rest : List SockId}
    (listening : (net.socks listener).state = .listening)
    (queue : queues listener = far :: rest) :
    (net.resetQueued far).Linked pending
        (Function.update queues listener rest) ∧
      ((net.resetQueued far).socks listener).state = .listening := by
  obtain ⟨connected, refs, -, unpending⟩ :=
    linked.queued listener far listening (by simp [queue])
  obtain ⟨near, linkedTo, -, different, nearState⟩ :=
    linked.paired far (.inl connected)
  have unnamed : net.idents far = 0 := by
    have := linked.named far
    grind
  have taken := linked.dequeue listening queue
  have isPending : far ∈ insert far pending := Finset.mem_insert_self far _
  have erased : (insert far pending).erase far = pending :=
    Finset.erase_insert unpending
  have apart : listener ≠ far := by
    rintro rfl
    rw [listening] at connected
    cases connected
  have apartNear : listener ≠ near := by
    rintro rfl
    rw [listening] at nearState
    rcases nearState with h | ⟨h, -⟩ <;> cases h
  unfold Net.resetQueued
  rw [linkedTo]
  dsimp only
  split
  · next closed =>
      have freed := taken.freeBoth isPending connected linkedTo closed
      have named : ((net.setState near .free).setState far .free).idents far =
          0 := unnamed
      rw [erased, setIdent_self named] at freed
      refine ⟨freed, ?_⟩
      simp only [Net.setState, modifySock_socks, apart, apartNear, if_false]
      exact listening
  · next stays =>
      have closed := taken.closeEnd isPending connected linkedTo stays
      have named : (net.setState far .closed).idents far = 0 := unnamed
      rw [erased, setIdent_self named] at closed
      have same : (((net.deliver (net.socks far).host near
          .fin).1.modifySock near .writeEvent).setState far
            .closed).control = (net.setState far .closed).control := by
        apply control_setState_congr
        rw [control_writeEvent, control_deliver]
      refine ⟨Linked.of_control closed same, ?_⟩
      have view := congrArg (fun view : Net => (view.socks listener).state) same
      refine Eq.trans view ?_
      simp only [control, Sock.control, Net.setState, modifySock_socks, apart,
        if_false]
      exact listening

theorem Linked.foldl_resetQueued
    {listener : SockId}
    (queue : List SockId)
    (linked : net.Linked pending queues)
    (listening : (net.socks listener).state = .listening)
    (queueIs : queues listener = queue) :
    (queue.foldl Net.resetQueued net).Linked pending
        (Function.update queues listener []) ∧
      ((queue.foldl Net.resetQueued net).socks listener).state =
        .listening := by
  induction queue generalizing net queues with
  | nil =>
      refine ⟨?_, listening⟩
      rw [Function.update_eq_self_iff.mpr queueIs.symm]
      exact linked
  | cons far rest inductionHypothesis =>
      obtain ⟨reset, still⟩ := linked.resetQueued listening queueIs
      have done := inductionHypothesis reset still (by simp)
      rw [Function.update_idem] at done
      exact done

/-- An end of a connection without descriptors is released. -/
theorem Linked.releaseConnected
    (linked : net.Linked pending queues)
    (isPending : sock ∈ pending)
    (connected : (net.socks sock).state = .connected) :
    ((net.releaseConnected sock).setIdent sock 0).Linked
      (pending.erase sock) queues := by
  obtain ⟨peer, linkedTo, -, -, -⟩ := linked.paired sock (.inl connected)
  unfold Net.releaseConnected
  rw [linkedTo]
  dsimp only
  split
  · next closed =>
      exact linked.freeBoth isPending connected linkedTo closed
  · next stays =>
      apply Linked.of_control
        (linked.closeEnd isPending connected linkedTo stays)
      apply control_setIdent_congr
      apply control_setState_congr
      rw [control_writeEvent]
      split
      · rfl
      · rw [control_deliver]

/-- A pending socket is released. -/
theorem Linked.release
    (linked : net.Linked pending net.backlogs)
    (isPending : sock ∈ pending) :
    (net.release sock).Linked (pending.erase sock)
      (net.release sock).backlogs := by
  rw [(StatesOnly.release net sock).backlogs]
  unfold Net.release
  dsimp only
  split
  · next listening =>
      obtain ⟨emptied, still⟩ := linked.foldl_resetQueued
        (net.socks sock).backlog listening rfl
      have freed := emptied.free isPending (by rw [still]; decide)
        (fun _ => Function.update_self sock [] net.backlogs)
      apply freed.of_queues
      intro i live
      by_cases same : i = sock
      · subst same
        rcases live with state | state | state <;>
          simp [setIdent, setState, Sock.setState] at state
      · rw [Function.update_of_ne same]
  · next connected => exact linked.releaseConnected isPending connected
  · next notListening notConnected =>
      exact linked.free isPending notConnected
        (fun listening => absurd listening notListening)

/-! ## Gaining and giving up references -/

theorem StatesOnly.held
    (same : StatesOnly net later)
    (pid : Nat)
    (sock : SockId) : later.held pid sock = net.held pid sock := by
  unfold Net.held
  rw [same.fdrefs]

theorem backlogs_modifySock
    (net : Net)
    (sock : SockId)
    (change : Sock → Sock) :
    (net.modifySock sock change).backlogs =
      Function.update net.backlogs sock (change (net.socks sock)).backlog := by
  funext i
  unfold backlogs
  rw [modifySock_socks, Function.update_apply]
  split <;> rfl

theorem backlogs_modifySock_same
    {change : Sock → Sock}
    (same : (change (net.socks sock)).backlog = (net.socks sock).backlog) :
    (net.modifySock sock change).backlogs = net.backlogs := by
  rw [backlogs_modifySock, same]
  exact Function.update_eq_self sock net.backlogs

/-- A process gains a descriptor for a pending or a referenced socket. -/
theorem Linked.addRef
    (linked : net.Linked pending net.backlogs)
    (live : sock ∈ pending ∨ 0 < (net.socks sock).refs)
    (added : net.addRef pid sock = some later) :
    later.Linked (pending.erase sock) later.backlogs := by
  unfold Net.addRef at added
  rw [Option.map_eq_some_iff] at added
  obtain ⟨at', found, rfl⟩ := added
  rw [backlogs_modifySock_same rfl]
  exact linked.gain live found

theorem Wired.addRef
    (wired : net.Wired)
    (live : 0 < (net.socks sock).refs)
    (added : net.addRef pid sock = some later) : later.Wired :=
  Linked.addRef wired (.inr live) added

/-- What a process holds after it gained a descriptor. -/
theorem held_addRef
    (linked : net.Linked pending net.backlogs)
    (live : sock ∈ pending ∨ 0 < (net.socks sock).refs)
    (added : net.addRef pid sock = some later)
    (holder : Nat)
    (other : SockId) :
    later.held holder other =
      net.held holder other +
        if holder = pid ∧ other = sock then 1 else 0 := by
  rw [held_eq_sum linked, held_eq_sum (linked.addRef live added)]
  unfold Net.addRef at added
  rw [Option.map_eq_some_iff] at added
  obtain ⟨at', found, rfl⟩ := added
  obtain ⟨within, entry⟩ := fdrefAt_some found
  have moved := net.sum_shareOf_setFdref within pid sock
    ((net.fdrefs at').count + 1) holder other
  have same : ((net.setFdref at' pid sock
      ((net.fdrefs at').count + 1)).modifySock sock .gainRef).fdrefs =
        (net.setFdref at' pid sock ((net.fdrefs at').count + 1)).fdrefs := rfl
  rw [same]
  simp only [FdRef.isFor_iff] at entry
  generalize (∑ entry ∈ Finset.range maxFdrefs,
    ((net.setFdref at' pid sock ((net.fdrefs at').count + 1)).fdrefs
      entry).shareOf holder other) = after at moved ⊢
  generalize (∑ entry ∈ Finset.range maxFdrefs,
    (net.fdrefs entry).shareOf holder other) = before at moved ⊢
  simp only [FdRef.shareOf] at moved
  grind

/-- Giving up a held descriptor releases the socket with the last one. -/
theorem dropRef_of_held
    (holds : 0 < net.held pid sock) :
    ∃ at' < maxFdrefs, (net.fdrefs at').isFor pid sock = true ∧
      ∀ lost, lost = (net.setFdref at' pid sock
          ((net.fdrefs at').count - 1)).modifySock sock .loseRef →
        net.dropRef pid sock =
          if (net.socks sock).refs - 1 = 0 then lost.release sock
          else lost := by
  obtain ⟨at', within, found, isFor⟩ := fdrefAt_of_held holds
  refine ⟨at', within, isFor, ?_⟩
  rintro lost rfl
  unfold dropRef
  rw [found]
  dsimp only
  rw [modifySock_socks_self]
  rfl

/-- A process gives up a descriptor it holds. -/
theorem Wired.dropRef
    (wired : net.Wired)
    (holds : 0 < net.held pid sock) : (net.dropRef pid sock).Wired := by
  have refs := Linked.refs_of_held wired holds
  obtain ⟨at', within, isFor, outcome⟩ := dropRef_of_held holds
  rw [outcome _ rfl]
  have lost := Linked.lose wired within isFor refs
  have kept : ((net.setFdref at' pid sock
      ((net.fdrefs at').count - 1)).modifySock sock .loseRef).backlogs =
        net.backlogs := backlogs_modifySock_same rfl
  rw [← kept] at lost
  unfold Wired
  split
  · next last =>
      have isLast : net.pendingWithout sock ∅ = {sock} := by
        unfold pendingWithout
        rw [if_pos (by omega)]
        rfl
      rw [isLast] at lost
      have released := lost.release (Finset.mem_singleton_self sock)
      rwa [Finset.erase_singleton] at released
  · next more =>
      have isMore : net.pendingWithout sock ∅ = ∅ := by
        unfold pendingWithout
        rw [if_neg (by omega)]
      rwa [isMore] at lost

/-- What a process holds after it gave up a descriptor. -/
theorem held_dropRef
    (wired : net.Wired)
    (holds : 0 < net.held pid sock)
    (holder : Nat)
    (other : SockId) :
    (net.dropRef pid sock).held holder other =
      net.held holder other -
        if holder = pid ∧ other = sock then 1 else 0 := by
  have dropped := Wired.dropRef wired holds
  rw [held_eq_sum wired, held_eq_sum dropped]
  obtain ⟨at', within, isFor, outcome⟩ := dropRef_of_held holds
  have same : (net.dropRef pid sock).fdrefs =
      (net.setFdref at' pid sock ((net.fdrefs at').count - 1)).fdrefs := by
    rw [outcome _ rfl]
    split
    · rw [(StatesOnly.release _ sock).fdrefs]
      rfl
    · rfl
  have moved := net.sum_shareOf_setFdref within pid sock
    ((net.fdrefs at').count - 1) holder other
  rw [same]
  rw [FdRef.isFor_iff] at isFor
  generalize (∑ entry ∈ Finset.range maxFdrefs,
    ((net.setFdref at' pid sock ((net.fdrefs at').count - 1)).fdrefs
      entry).shareOf holder other) = after at moved ⊢
  generalize (∑ entry ∈ Finset.range maxFdrefs,
    (net.fdrefs entry).shareOf holder other) = before at moved ⊢
  simp only [FdRef.shareOf] at moved
  grind

/-- One reference gained or given up by a process. -/
inductive RefStep (pid : Nat) : Net → Net → Prop
  | gain {net later : Net} {sock : SockId} :
      0 < (net.socks sock).refs → net.addRef pid sock = some later →
      RefStep pid net later
  | drop {net : Net} {sock : SockId} :
      0 < net.held pid sock → RefStep pid net (net.dropRef pid sock)

/-- Any number of references gained and given up by a process. -/
abbrev RefSteps (pid : Nat) : Net → Net → Prop :=
  Relation.ReflTransGen (RefStep pid)

theorem Wired.refStep
    (wired : net.Wired)
    (step : RefStep pid net later) : later.Wired := by
  cases step with
  | gain live added => exact wired.addRef live added
  | drop holds => exact wired.dropRef holds

theorem Wired.refSteps
    (wired : net.Wired)
    (steps : RefSteps pid net later) : later.Wired := by
  induction steps with
  | refl => exact wired
  | tail _ step inductionHypothesis => exact inductionHypothesis.refStep step

/-- Nobody else's descriptors change. -/
theorem held_refSteps
    (wired : net.Wired)
    (steps : RefSteps pid net later)
    {holder : Nat}
    (different : holder ≠ pid)
    (sock : SockId) : later.held holder sock = net.held holder sock := by
  induction steps with
  | refl => rfl
  | tail before step inductionHypothesis =>
      rw [← inductionHypothesis]
      have known := Wired.refSteps wired before
      cases step with
      | gain live added =>
          rw [held_addRef known (.inr live) added]
          simp [different]
      | drop holds =>
          rw [held_dropRef known holds]
          simp [different]

/-- Dropping a number of held descriptors drops them one by one. -/
theorem refSteps_dropRefs
    (wired : net.Wired)
    (count : Nat)
    (holds : count ≤ net.held pid sock) :
    RefSteps pid net (dropRefs pid sock count net) ∧
      ∀ other, (dropRefs pid sock count net).held pid other =
        net.held pid other - if other = sock then count else 0 := by
  induction count generalizing net with
  | zero => exact ⟨.refl, by simp [dropRefs]⟩
  | succ count inductionHypothesis =>
      have positive : 0 < net.held pid sock := by omega
      have after := held_dropRef wired positive pid
      obtain ⟨steps, remaining⟩ := inductionHypothesis
        (wired.dropRef positive) (by rw [after]; simp; omega)
      refine ⟨.head (.drop positive) steps, ?_⟩
      intro other
      rw [dropRefs, remaining, after]
      by_cases same : other = sock
      · simp only [same, true_and, if_true]
        omega
      · simp [same]

/-- Dropping what was held drops it one by one, socket by socket. -/
theorem refSteps_foldl_dropRefs
    (old : SockId → Nat)
    (slots : List SockId)
    (distinct : slots.Nodup)
    (wired : net.Wired)
    (holds : ∀ slot ∈ slots, old slot ≤ net.held pid slot) :
    RefSteps pid net
        (slots.foldl (fun net slot => dropRefs pid slot (old slot) net) net) ∧
      ∀ slot,
        (slots.foldl (fun net slot => dropRefs pid slot (old slot) net)
          net).held pid slot =
            net.held pid slot - if slot ∈ slots then old slot else 0 := by
  induction slots generalizing net with
  | nil => exact ⟨.refl, by simp⟩
  | cons first slots inductionHypothesis =>
      rw [List.nodup_cons] at distinct
      obtain ⟨steps, remaining⟩ :=
        refSteps_dropRefs wired (old first) (holds first (by simp))
      obtain ⟨more, emptied⟩ := inductionHypothesis distinct.2
        (wired.refSteps steps) (by
          intro slot present
          rw [remaining, if_neg, Nat.sub_zero]
          · exact holds slot (by simp [present])
          · rintro rfl
            exact distinct.1 present)
      refine ⟨steps.trans more, ?_⟩
      intro slot
      rw [List.foldl_cons, emptied, remaining]
      by_cases same : slot = first
      · subst same
        simp [distinct.1]
      · simp [same]

theorem refSteps_dropHeld
    (wired : net.Wired)
    {old : SockId → Nat}
    (holds : ∀ slot, old slot ≤ net.held pid slot) :
    RefSteps pid net (net.dropHeld pid old) ∧
      ∀ slot, (net.dropHeld pid old).held pid slot =
        net.held pid slot - old slot := by
  obtain ⟨steps, remaining⟩ := refSteps_foldl_dropRefs old
    (List.finRange maxSockets) (List.nodup_finRange maxSockets) wired
    (fun slot _ => holds slot)
  refine ⟨steps, ?_⟩
  intro slot
  have := remaining slot
  rwa [if_pos (List.mem_finRange slot)] at this

/-- Adding descriptors for sockets in use adds them one by one. -/
theorem refSteps_addRefs
    (wired : net.Wired)
    (sockets : List SockId)
    (live : ∀ sock ∈ sockets, 0 < (net.socks sock).refs)
    (added : addRefs pid sockets net = some later) :
    RefSteps pid net later ∧
      ∀ other, net.held pid other ≤ later.held pid other := by
  induction sockets generalizing net with
  | nil =>
      simp only [addRefs, Option.some.injEq] at added
      subst added
      exact ⟨.refl, fun _ => le_rfl⟩
  | cons sock sockets inductionHypothesis =>
      simp only [addRefs, Option.bind_eq_some_iff] at added
      obtain ⟨middle, first, rest⟩ := added
      have gained := held_addRef wired (.inr (live sock (by simp))) first pid
      have stillLive : ∀ other ∈ sockets, 0 < (middle.socks other).refs := by
        intro other present
        have before := live other (by simp [present])
        unfold addRef at first
        rw [Option.map_eq_some_iff] at first
        obtain ⟨at', -, rfl⟩ := first
        rw [modifySock_socks]
        split
        · exact Nat.succ_pos _
        · exact before
      obtain ⟨steps, more⟩ := inductionHypothesis
        (wired.addRef (live sock (by simp)) first) stillLive rest
      refine ⟨.head (.gain (live sock (by simp)) first) steps, ?_⟩
      intro other
      have := more other
      have := gained other
      omega

/-- The sockets a process recognises by their inodes are in use. -/
theorem Wired.byIdent
    (wired : net.Wired)
    {ident : Nat}
    (found : net.byIdent ident = some sock) : 0 < (net.socks sock).refs := by
  unfold Net.byIdent at found
  split at found
  · cases found
  · next named =>
      have same := List.find?_finRange_some found
      simp only [decide_eq_true_eq] at same
      have := Linked.named wired sock
      rw [same] at this
      simpa using this named

theorem refSteps_adoptInherited
    (wired : net.Wired)
    {idents : List Nat}
    (adopted : net.adoptInherited pid idents = some later) :
    RefSteps pid net later := by
  unfold adoptInherited setRefs at adopted
  rw [Option.map_eq_some_iff] at adopted
  obtain ⟨middle, added, rfl⟩ := adopted
  obtain ⟨steps, more⟩ := refSteps_addRefs wired _ (by
    intro sock present
    obtain ⟨ident, -, found⟩ := List.mem_filterMap.mp present
    exact wired.byIdent found) added
  exact steps.trans (refSteps_dropHeld (wired.refSteps steps) more).1

theorem refSteps_processDied (wired : net.Wired) (pid : Nat) :
    RefSteps pid net (net.processDied pid) ∧
      ∀ sock, (net.processDied pid).held pid sock = 0 := by
  obtain ⟨steps, remaining⟩ :=
    refSteps_dropHeld wired (fun slot => le_refl (net.held pid slot))
  refine ⟨steps, ?_⟩
  intro sock
  have := remaining sock
  rwa [Nat.sub_self] at this

end Net
end Derp
