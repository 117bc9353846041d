import HttpRelay.Proofs.Throttle.Undisturbed

/-!
# Every request is answered exactly once

However callers, the loop and a shutdown interleave, a request that was parked gets one reply:
the one planned at its own position in the batch of the first drain of its slot, or a release
without limit.

The argument rests on four invariants of the reachable states: `Accounted` says where each ticket
is, `Traced` what it went through, `Timely` how long it may stay, and `Stopped` what a shutdown
leaves behind. They are put together in `exactlyOnce_of_reachable`.
-/

namespace HttpRelay.Throttle

variable {α : Type} [Quantity α]

namespace Purpose

/-- What the request at a position of a batch is granted, when some budget answers the batch. -/
def Grants (purpose : Purpose α) (budget : Nat) (batch : List (Parked α)) (i : Nat)
    (allowance : Allowance α) : Prop :=
  match purpose with
  | tick elapsed =>
    (planTick budget elapsed (batch.map Parked.request))[i]? = some allowance
  | release => allowance = .unlimited

/-- An answer to a batch is for the request at its own position. -/
theorem getElem?_plan {purpose : Purpose α} {budget : Nat} {batch : List (Parked α)} {i : Nat}
    {reply : Reply α} (h : (purpose.plan budget batch)[i]? = some reply) :
    ∃ p, batch[i]? = some p ∧ p.ticket = reply.1 ∧ purpose.Grants budget batch i reply.2 := by
  cases purpose with
  | tick elapsed =>
    -- the tickets and the plan are zipped, so that both are read at the one position
    obtain ⟨hticket, hgrant⟩ := List.getElem?_zip_eq_some.mp h
    rw [List.getElem?_map] at hticket
    obtain ⟨p, hp, hpticket⟩ := Option.map_eq_some_iff.mp hticket
    exact ⟨p, hp, hpticket, hgrant⟩
  | release =>
    rw [plan, List.getElem?_map] at h
    obtain ⟨p, hp, rfl⟩ := Option.map_eq_some_iff.mp h
    exact ⟨p, hp, rfl, rfl⟩

end Purpose

namespace Machine

/-- What holds of the requests of a machine and of their answers. -/
structure ExactlyOnce (m : Machine α) : Prop where
  /-- Each accepted request has a ticket of its own. -/
  tickets_nodup : (ticketsOf m.log.parks).Nodup
  /-- An accepted ticket waits, or is held by the loop or the shutdown, or was answered, and is
  in one of these places only once. -/
  conserved : (ticketsOf m.log.parks).Perm
    (ticketsOf (m.scheduler.waiting ++ m.loop.held ++ m.shutdown.held) ++
      answeredBy m.log.handsOut)
  /-- No ticket is answered twice. -/
  replies_nodup : (answeredBy m.log.handsOut).Nodup
  /-- An answer is what was planned at the position of its request in the batch that took it from
  its slot, or a release. -/
  granted : ∀ ticket allowance, (ticket, allowance) ∈ m.log.handsOut →
    ∃ purpose slot budget batch replies i p,
      .accepted slot p ∈ m.log ∧ p.ticket = ticket ∧ .drained purpose slot batch ∈ m.log ∧
        batch[i]? = some p ∧ .answered purpose slot budget batch replies ∈ m.log ∧
        replies[i]? = some (ticket, allowance) ∧ purpose.Grants budget batch i allowance
  /-- No request is taken twice. -/
  takes_nodup : (ticketsOf m.log.takes).Nodup
  /-- A request is taken by the first drain of its slot behind its acceptance. -/
  taken_first : ∀ pre mid post purpose slot batch p,
    m.log = pre ++ .accepted slot p :: mid ++ .drained purpose slot batch :: post →
    (∀ purpose batch, .drained purpose slot batch ∉ mid) → p ∈ batch
  /-- A request that was accepted behind a drain is not in the batch of the drain. -/
  not_taken_before : ∀ pre mid post purpose slot batch slot' p,
    m.log = pre ++ .drained purpose slot batch :: mid ++ .accepted slot' p :: post →
    p.ticket ∉ ticketsOf batch
  /-- When a pass of the loop ended that began behind the acceptance of a request, the request was
  answered, or the shutdown is about to answer it. -/
  timely : ∀ pre post slot p, m.log = pre ++ .accepted slot p :: post →
    Log.begun pre < m.log.ended →
      p.ticket ∈ answeredBy m.log.handsOut ∨ p ∈ m.shutdown.held
  /-- Behind a completed shutdown nothing waits, now or later, nothing is accepted any more, and
  every request was answered. -/
  completed : m.shutdown = .completed → ∀ m', Reaches m m' →
    (∀ slot, m'.scheduler.parkedAt slot = []) ∧
      (∀ id request, m'.scheduler.enqueue? id request = none) ∧
      (answeredBy m'.log.handsOut).Perm (ticketsOf m'.log.parks)
  /-- A shutdown can still complete. -/
  completes : ∃ m', Reaches m m' ∧ m'.shutdown = .completed

variable {m : Machine α}

/-- An answer can be traced back to its request. -/
theorem Traced.granted (h : m.Traced) {ticket : Nat} {allowance : Allowance α}
    (hmem : (ticket, allowance) ∈ m.log.handsOut) :
    ∃ purpose slot budget batch replies i p,
      .accepted slot p ∈ m.log ∧ p.ticket = ticket ∧ .drained purpose slot batch ∈ m.log ∧
        batch[i]? = some p ∧ .answered purpose slot budget batch replies ∈ m.log ∧
        replies[i]? = some (ticket, allowance) ∧ purpose.Grants budget batch i allowance := by
  obtain ⟨e, he, hreply⟩ := List.mem_flatMap.mp hmem
  cases e with
  | answered purpose slot budget batch replies =>
    -- from the answer back to its batch, to the request in it, and to the acceptance
    obtain ⟨hdrained, hplan⟩ := h.answered _ _ _ _ _ he
    obtain ⟨i, hi⟩ := List.getElem?_of_mem hreply
    obtain ⟨p, hp, hticket, hgrants⟩ := Purpose.getElem?_plan (hplan ▸ hi)
    obtain ⟨pre, post, hsplit⟩ := List.append_of_mem hdrained
    have haccepted := h.drained pre post purpose slot batch hsplit p (List.mem_of_getElem? hp)
    refine ⟨purpose, slot, budget, batch, replies, i, p, ?_, hticket, hdrained, hp, he, hi,
      hgrants⟩
    rw [hsplit]
    exact List.mem_append_left _ haccepted
  | _ => cases hreply

/-- What a pass holds was accepted for its slot. -/
theorem Traced.accepted_of_held (h : m.Traced) {pass : Pass α} (hpass : pass.Traced m.log)
    {p : Parked α} (hp : p ∈ pass.held) :
    ∃ slot batch, pass.hand = some (slot, batch) ∧ p ∈ batch ∧ .accepted slot p ∈ m.log := by
  cases hhand : pass.hand with
  | none => simp [Pass.held, hhand] at hp
  | some taken =>
    obtain ⟨slot, batch⟩ := taken
    have hmem : p ∈ batch := by simpa [Pass.held, hhand] using hp
    obtain ⟨pre, post, hsplit⟩ := List.append_of_mem (hpass slot batch hhand)
    refine ⟨slot, batch, rfl, hmem, ?_⟩
    rw [hsplit]
    exact List.mem_append_left _ (h.drained pre post _ slot batch hsplit p hmem)

/-- A request that outlasted a pass of the loop was answered, or is held by the shutdown. -/
theorem Timely.answered (h : m.Timely) (haccounted : m.Accounted) (htraced : m.Traced)
    {pre post : Log α} {slot : Nat} {p : Parked α}
    (hsplit : m.log = pre ++ .accepted slot p :: post) (hended : pre.begun < m.log.ended) :
    p.ticket ∈ answeredBy m.log.handsOut ∨ p ∈ m.shutdown.held := by
  have hdue := h.due pre post slot p hsplit
  have haccepted : .accepted slot p ∈ m.log := by
    rw [hsplit]
    exact List.mem_append_right _ List.mem_cons_self
  -- The ticket is in one of four places, two of which the pass rules out.
  have hplace := haccounted.conserved.mem_iff.mp
    (List.mem_map_of_mem (Log.mem_parks haccepted))
  refine (List.mem_append.mp hplace).elim (fun hplace => ?_) .inl
  obtain ⟨p', hp', hticket⟩ := List.mem_map.mp hplace
  simp only [List.mem_append] at hp'
  rcases hp' with (hp' | hp') | hp'
  · -- It cannot wait: its slot was visited by the pass.
    obtain ⟨slot', -, hparked⟩ := Scheduler.exists_mem_parkedAt _ hp'
    obtain ⟨rfl, rfl⟩ := haccounted.accepted_unique (htraced.parked slot' p' hparked) haccepted
      hticket
    exact absurd (hdue.parked hparked) (Nat.not_le_of_lt hended)
  · -- The loop cannot hold it: it answers a batch before it ends its pass.
    cases hloop : m.loop with
    | passing pass =>
      rw [hloop] at hp'
      obtain ⟨slot', batch, hhand, hmem, haccepted'⟩ :=
        htraced.accepted_of_held (htraced.loop pass hloop) hp'
      obtain ⟨rfl, rfl⟩ := haccounted.accepted_unique haccepted' haccepted hticket
      exact absurd (hdue.held pass batch hloop hhand hmem) (Nat.not_le_of_lt hended)
    | _ => simp [hloop, LoopState.held] at hp'
  · -- What the shutdown holds is the request itself, as its ticket is its own.
    cases hshutdown : m.shutdown with
    | releasing pass =>
      rw [hshutdown] at hp'
      obtain ⟨slot', batch, -, -, haccepted'⟩ :=
        htraced.accepted_of_held (htraced.shutdown pass hshutdown) hp'
      obtain ⟨-, rfl⟩ := haccounted.accepted_unique haccepted' haccepted hticket
      exact .inr hp'
    | _ => simp [hshutdown, ShutdownState.held] at hp'

/-- When a shutdown completed, everything was answered and nothing parks any more. -/
theorem Reachable.completed (h : m.Reachable) (hcompleted : m.shutdown = .completed) :
    (∀ slot, m.scheduler.parkedAt slot = []) ∧
      (∀ id request, m.scheduler.enqueue? id request = none) ∧
      (answeredBy m.log.handsOut).Perm (ticketsOf m.log.parks) := by
  obtain ⟨hempty, hgone⟩ := h.stopped.completed hcompleted
  have hstop : m.scheduler.shutDown = true := by
    rw [h.stopped.called, hcompleted]
    simp
  refine ⟨hempty, Scheduler.enqueue?_of_shutDown hstop, ?_⟩
  have hwaiting : m.scheduler.waiting = [] := by
    refine List.eq_nil_iff_forall_not_mem.mpr fun p hp => ?_
    obtain ⟨slot, -, hparked⟩ := Scheduler.exists_mem_parkedAt _ hp
    rw [hempty slot] at hparked
    cases hparked
  have hloop : m.loop.held = [] := by
    rcases hgone with hgone | hgone <;> rw [hgone] <;> rfl
  -- no place but the answers is left
  have hconserved := h.accounted.conserved
  rw [hwaiting, hloop, hcompleted] at hconserved
  exact hconserved.symm

/-- Whatever the interleaving, every request that is parked is answered exactly once, by the plan
for the first batch that takes it or by a release, and behind a shutdown nothing waits. -/
theorem exactlyOnce_of_reachable (h : m.Reachable) : m.ExactlyOnce where
  tickets_nodup := h.accounted.nodup_parks
  conserved := h.accounted.conserved
  replies_nodup := h.accounted.nodup_handsOut
  granted _ _ hmem := h.traced.granted hmem
  takes_nodup := h.accounted.nodup_takes
  taken_first := h.traced.swept
  not_taken_before := by
    intro pre mid post purpose slot batch slot' p hsplit htaken
    -- a request in the batch was accepted before the drain, and so has another ticket
    obtain ⟨p', hp', hticket⟩ := List.mem_map.mp htaken
    have haccepted : .accepted slot p' ∈ pre := by
      refine h.traced.drained pre (mid ++ .accepted slot' p :: post) purpose slot batch ?_ p' hp'
      simpa using hsplit
    exact h.accounted.ticket_ne hsplit
      (.inl (Log.mem_parks (List.mem_append_left _ haccepted))) hticket.symm
  timely _ _ _ _ hsplit hended := h.timely.answered h.accounted h.traced hsplit hended
  completed hcompleted m' hreaches :=
    (h.reaches hreaches).completed (completed_reaches hcompleted hreaches)
  completes := h.exists_completed

/-- A request that waits under a budget is answered by an undisturbed pass of the loop, and all that
holds of reachable machines holds behind the pass. -/
theorem exactlyOnce_of_one_tick : ∃ m : Machine Float,
    m.Reachable ∧ answeredBy m.log.handsOut = [0] ∧ m.ExactlyOnce := by
  let request : Request Float := ⟨.named "peer", 10, 0⟩
  let limited : Machine Float := ⟨⟨[⟨1000, []⟩], 100, true, false, 0⟩, .idle, .notCalled, []⟩
  let waiting : Machine Float :=
    ⟨⟨[⟨1000, [⟨0, request⟩]⟩], 100, true, false, 1⟩, .idle, .notCalled, [.accepted 0 ⟨0, request⟩]⟩
  have hlimit : Step (init 1 true) limited := @Step.setBudget Float _ _ ⟨0⟩ 1000 _ rfl
  have haccept : Step limited waiting := @Step.accept Float _ limited ⟨0⟩ request 0 _ rfl
  obtain ⟨log, hreplies, htick⟩ := reaches_tick (m := waiting) rfl 1
  have hreachable : Reachable _ := ⟨1, true, .head hlimit (.head haccept htick)⟩
  refine ⟨_, hreachable, ?_, exactlyOnce_of_reachable hreachable⟩
  change answeredBy ([] ++ log.handsOut) = [0]
  rw [hreplies]
  rfl

end Machine

end HttpRelay.Throttle
