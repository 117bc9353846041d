import HttpRelay.Proofs.Throttle.Isolation
import HttpRelay.Proofs.Throttle.Usage
import HttpRelay.Proofs.Transport.Buffered

/-!
# Conservation of allowances

Grants are put in place of what a direction held before, and transfers of several kinds draw from
them. No byte of an allowance gets lost on the way, and none is used twice: what was moved and what
is held add up to what was granted.

* `Receipt.worth`: how many bytes a grant is good for;
* `World.Balances`: what a step may do to an allowance;
* `Usage.allowance_conserved`: the account of a direction over any calls.
-/

namespace HttpRelay.Throttle

section Accounts

variable {α : Type}

/-- How many bytes a receipt is good for, to the request that it answers. -/
def Receipt.worth (requested : Nat) : Receipt α → Nat
  | .grant (.bytes count _) => count
  | .grant .unlimited | .lost => max requested 1

/-- Number of bytes that a step got granted. -/
def Deed.granted : Deed α → Nat
  | .applies requested receipt => receipt.worth requested
  | _ => 0

/-- Number of bytes that a step moved under an allowance. -/
def Deed.moved : Deed α → Nat
  | .transfers _ data true => data.length
  | _ => 0

/-- Bytes of a piece of the allowance that got through and are not accounted for. -/
def Phase.owed : Phase → Nat
  | .moves _ begun true => begun
  | _ => 0

@[simp] theorem Phase.owed_moves (limit begun : Nat) :
    (Phase.moves limit begun true).owed = begun := rfl

/-- Nothing is owed at the end of a round. -/
theorem Phase.owed_of_cases {P : Prop} {phase : Phase}
    (h : (∃ outcome, phase = .returns outcome) ∨ phase = .ready ∧ P) : phase.owed = 0 := by
  obtain ⟨outcome, rfl⟩ | ⟨rfl, -⟩ := h <;> rfl

/-- Nothing is owed by a call at its end. -/
theorem Phase.owed_of_isEnd {phase : Phase} (h : phase.isEnd = true) : phase.owed = 0 := by
  cases phase with
  | returns => rfl
  | _ => cases h

namespace Side

/-- Number of bytes granted so far. -/
def granted (side : Side α) : Nat := (side.deeds.map Deed.granted).sum

/-- Number of bytes moved under an allowance so far. -/
def moved (side : Side α) : Nat := (side.deeds.map Deed.moved).sum

/-- Number of bytes moved and not accounted for: of the piece under way, and of the pieces in which
calls were stopped. -/
def owed (side : Side α) : Nat :=
  side.transfer.phase.owed + (side.stopped.map fun transfer => transfer.phase.owed).sum

section Records

variable (side : Side α) (deed : Deed α) (transfer : Transfer) (call : Call)

@[simp] theorem moved_record : (side.record deed transfer).moved = side.moved + deed.moved := by
  simp [moved, record]

@[simp] theorem granted_record :
    (side.record deed transfer).granted = side.granted + deed.granted := by
  simp [granted, record]

/-- A step puts what its call owes in place of what the call owed, unless it stops the call. -/
theorem owed_record :
    (side.record deed transfer).owed + side.transfer.phase.owed =
      side.owed + transfer.phase.owed +
        if deed.isFailure then side.transfer.phase.owed else 0 := by
  unfold owed record
  cases deed.isFailure
  · simp only [Bool.false_eq_true, if_false]
    omega
  · simp only [if_true, List.map_append, List.map_singleton, List.sum_append, List.sum_singleton]
    omega

@[simp] theorem moved_begin : (side.begin call).moved = side.moved := rfl

@[simp] theorem granted_begin : (side.begin call).granted = side.granted := rfl

/-- A call that begins takes nothing off what is owed. -/
@[simp] theorem owed_begin : (side.begin call).owed = side.owed := by
  unfold owed begin
  change 0 + _ = _
  cases hphase : side.transfer.phase <;>
    simp [Phase.isEnd, Phase.owed, hphase, Nat.add_comm]

/-- A call that is stopped by a step is the one under way. -/
theorem mem_stopped_record {stopped : Transfer}
    (h : stopped ∈ (side.record deed transfer).stopped) :
    stopped ∈ side.stopped ∨ stopped = side.transfer := by
  unfold record at h
  cases hfails : deed.isFailure <;> simp_all

/-- A call that is stopped by the next one is the one under way. -/
theorem mem_stopped_begin {stopped : Transfer} (h : stopped ∈ (side.begin call).stopped) :
    stopped ∈ side.stopped ∨ stopped = side.transfer := by
  unfold begin at h
  cases hend : side.transfer.phase.isEnd <;> simp_all

end Records

end Side

theorem Pacing.allowance_receive [Quantity α] (p : Pacing α) (receipt : Receipt α) :
    (p.receive receipt).allowance = receipt.worth p.requested := by
  cases receipt with
  | grant allowance => cases allowance <;> rfl
  | lost => rfl

end Accounts

namespace World

variable {α : Type} [Quantity α] {w : World α} {cancelled : Bool} {out : Deed α × World α}

/-- What a step may do to an allowance. A grant comes only when nothing is held. A transfer asks for
no more than the caller's buffer holds and, if it is covered, for no more than is held behind the
bytes that are still to be accounted for; its bytes are taken off the allowance or are owed. Nothing
else touches the allowance. -/
def Balances (w : World α) : Deed α × World α → Prop
  | (.applies requested receipt, w') =>
    w.pacing.allowance = 0 ∧ w'.pacing.allowance = receipt.worth requested
  | (.transfers limit data true, w') =>
    data.length ≤ limit ∧ limit ≤ w.transfer.wanted ∧
      w.transfer.phase.owed + limit ≤ w.pacing.allowance ∧
      w'.pacing.allowance + (w.transfer.phase.owed + data.length) =
        w.pacing.allowance + w'.transfer.phase.owed
  | (.transfers limit data false, w') =>
    data.length ≤ limit ∧ limit ≤ w.transfer.wanted ∧ w'.pacing.allowance = w.pacing.allowance
  | (_, w') => w'.pacing.allowance = w.pacing.allowance

omit [Quantity α] in
/-- A transfer to the end of a piece balances if it takes the piece off the allowance. -/
theorem balances_of_spend {w w' : World α} {limit begun : Nat} {covered : Bool} {data : Bytes}
    (hphase : w.transfer.phase = .moves limit begun covered) (hsound : w.Sound)
    (hlength : data.length ≤ limit - begun) (howed : w'.transfer.phase.owed = 0)
    (hpacing : w'.pacing.allowance = w.pacing.allowance -
      if covered || w.transfer.mode.isPaced then begun + data.length else 0) :
    w.Balances (.transfers (limit - begun) data covered, w') := by
  have hmoving := hsound.moving hphase
  cases covered with
  | true =>
    have hallowance := hmoving.limit_le_allowance rfl
    have hbegun := hmoving.begun_lt rfl
    rw [Bool.true_or, if_pos rfl] at hpacing
    refine ⟨hlength, hmoving.sub_le, ?_, ?_⟩
    · rw [hphase, Phase.owed_moves]
      omega
    · rw [howed, hphase, Phase.owed_moves]
      omega
  | false =>
    -- A paced transfer that moved a free piece holds nothing to take it off from.
    refine ⟨hlength, hmoving.sub_le, ?_⟩
    rw [hpacing, Bool.false_or]
    split
    next hpaced => rw [hmoving.allowance_eq rfl hpaced, Nat.zero_sub]
    next => exact Nat.sub_zero _

/-- Every step balances. -/
theorem Step.balances (h : Step cancelled w out) (hsound : w.Sound) : w.Balances out := by
  cases h with
  | shuts | finishes | passes | wishes | covers | finds | parks | frees | quits | waits | fails
  | returned => rfl
  | applies ticket hphase receipt hmail =>
    exact ⟨(hsound.holding hphase).2, Pacing.allowance_receive _ _⟩
  | keeps ticket hphase hpaced allowance hmail =>
    exact ⟨(hsound.holding hphase).2, Pacing.allowance_receive w.pacing (.grant allowance)⟩
  | reads limit begun covered hphase hmode data incoming hread =>
    obtain rfl := (hsound.moving hphase).begun_eq_zero (Mode.ne_writePaced hmode)
    refine balances_of_spend hphase hsound (Feed.readSome_ok hread).2
      (Phase.owed_of_cases (w.transfer.behindRead_cases _ _)) ?_
    rw [Nat.zero_add]
    change (if _ then _ else _ : Pacing α).allowance = _
    split <;> rfl
  | writesPart limit begun covered hphase hmode count hcount hlimit hrest =>
    have hmoving := hsound.moving hphase
    have hlength : (w.transfer.rest.take count).length = count := List.length_take_of_le hrest
    cases covered with
    | true =>
      have hallowance := hmoving.limit_le_allowance rfl
      refine ⟨by omega, hmoving.sub_le, ?_, ?_⟩
      · rw [hphase, Phase.owed_moves]
        omega
      · rw [hphase, Phase.owed_moves, hlength]
        rfl
    | false => exact ⟨by omega, hmoving.sub_le, rfl⟩
  | writes limit begun covered hphase hmode count hlimit hrest hpositive hwhole =>
    have hlength : (w.transfer.rest.take count).length = count := List.length_take_of_le hrest
    refine balances_of_spend hphase hsound (by omega)
      (Phase.owed_of_cases (w.transfer.behindWrite_cases _)) ?_
    rw [hlength, Bool.or_comm]
    rfl

omit [Quantity α] in
/-- Only a paced write owes anything. -/
theorem Sound.owed_eq_zero (hsound : w.Sound) (hmode : w.transfer.mode ≠ .writePaced) :
    w.transfer.phase.owed = 0 := by
  cases hphase : w.transfer.phase with
  | moves limit begun covered =>
    rw [(hsound.moving hphase).begun_eq_zero hmode]
    cases covered <;> rfl
  | _ => rfl

/-- What is owed changes only with a transfer under an allowance, or because the stream failed
below. -/
theorem Step.owed_cases (h : Step cancelled w out) (hsound : w.Sound) :
    (∃ limit data, out.1 = .transfers limit data true) ∨
      out.2.transfer.phase.owed + (if out.1.isFailure then w.transfer.phase.owed else 0) =
        w.transfer.phase.owed := by
  cases h with
  | shuts hphase | finishes hphase | passes hphase | wishes hphase | covers hphase | finds hphase
  | parks hphase | frees hphase =>
    exact .inr (by simp [enter, hold, Phase.owed, Deed.isFailure, hphase])
  | applies ticket hphase | keeps ticket hphase | quits ticket hphase =>
    exact .inr (by simp [enter, World.quits, Phase.owed, Deed.isFailure, hphase])
  | waits awaited =>
    refine .inr ?_
    change (if w.transfer.mode.isPaced then w.transfer.phase else .ready).owed + 0 = _
    -- A transfer that begins anew leaves its piece, but only a paced write owes anything of it.
    split
    next => rfl
    next hpaced =>
      exact (hsound.owed_eq_zero fun hmode => hpaced (by rw [hmode]; rfl)).symm
  | reads limit begun covered hphase =>
    cases covered with
    | true => exact .inl ⟨_, _, rfl⟩
    | false =>
      rw [hphase]
      exact .inr (Phase.owed_of_cases (w.transfer.behindRead_cases _ _))
  | writesPart limit begun covered hphase =>
    cases covered with
    | true => exact .inl ⟨_, _, rfl⟩
    | false => exact .inr (by simp [enter, Phase.owed, Deed.isFailure, hphase])
  | writes limit begun covered hphase =>
    cases covered with
    | true => exact .inl ⟨_, _, rfl⟩
    | false =>
      rw [hphase]
      exact .inr (Phase.owed_of_cases (w.transfer.behindWrite_cases _))
  | fails limit begun covered hphase failure =>
    exact .inr (by simp [enter, Phase.owed, Deed.isFailure, hphase])
  | returned outcome hphase => exact .inr rfl

/-- The account of a step. What the stream below failed is left over. -/
theorem Step.accounts (h : Step cancelled w out) (hsound : w.Sound) :
    out.1.moved + out.2.pacing.allowance + w.transfer.phase.owed =
      out.1.granted + w.pacing.allowance + out.2.transfer.phase.owed +
        if out.1.isFailure then w.transfer.phase.owed else 0 := by
  have hbalances := h.balances hsound
  have howed := h.owed_cases hsound
  obtain ⟨deed, w'⟩ := out
  -- A transfer under an allowance balances with what it owes; what else a step does leaves the
  -- allowance alone, or puts a grant in place of nothing.
  cases deed with
  | transfers limit data covered =>
    cases covered with
    | true =>
      obtain ⟨-, -, -, hbalances⟩ := hbalances
      simp only [Deed.moved, Deed.granted, Deed.isFailure, Bool.false_eq_true, if_false]
      omega
    | false =>
      obtain ⟨-, -, hbalances⟩ := hbalances
      have howed := howed.resolve_left (by simp)
      simp only [Deed.moved, Deed.granted] at howed ⊢
      omega
  | applies requested receipt =>
    obtain ⟨hbefore, hbehind⟩ := hbalances
    have howed := howed.resolve_left (by simp)
    simp only [Deed.moved, Deed.granted] at howed ⊢
    omega
  | turns | parks | fails | waits | ends =>
    have hbalances : w'.pacing.allowance = w.pacing.allowance := hbalances
    have howed := howed.resolve_left (by simp)
    simp only [Deed.moved, Deed.granted] at howed ⊢
    omega

end World

namespace Usage

variable {α : Type} [Quantity α]

/-- The account of a direction, and what is true of its call throughout. -/
structure Accounted (direction : Direction) (u : Usage α) : Prop where
  sound : (u.world direction).Sound
  conserved : (u.side direction).moved + (u.stream.pacing direction).allowance =
    (u.side direction).granted + (u.side direction).owed
  /-- Nothing is owed of calls that were stopped, other than of paced writes. -/
  stopped : ∀ transfer ∈ (u.side direction).stopped,
    transfer.mode ≠ .writePaced → transfer.phase.owed = 0

omit [Quantity α] in
/-- Nothing is owed if no paced write is under way or was stopped. -/
theorem Accounted.owed_eq_zero {direction : Direction} {u : Usage α} (h : Accounted direction u)
    (hend : (u.side direction).transfer.mode = .writePaced →
      (u.side direction).transfer.phase.isEnd = true)
    (hstopped : ∀ transfer ∈ (u.side direction).stopped, transfer.mode ≠ .writePaced) :
    (u.side direction).owed = 0 := by
  have hcall : (u.side direction).transfer.phase.owed = 0 := by
    by_cases hmode : (u.side direction).transfer.mode = .writePaced
    · exact Phase.owed_of_isEnd (hend hmode)
    · exact h.sound.owed_eq_zero hmode
  have hothers : ((u.side direction).stopped.map fun transfer => transfer.phase.owed).sum = 0 := by
    refine List.sum_eq_zero fun owed howed => ?_
    obtain ⟨transfer, hmem, rfl⟩ := List.mem_map.mp howed
    exact h.stopped transfer hmem (hstopped transfer hmem)
  rw [Side.owed, hcall, hothers]

/-- A step keeps the account of its direction. -/
theorem conserved_step {direction : Direction} {u : Usage α} (cancelled : Bool)
    (hsound : (u.world direction).Sound)
    (h : (u.side direction).moved + (u.stream.pacing direction).allowance =
      (u.side direction).granted + (u.side direction).owed) :
    ((u.step direction cancelled).side direction).moved +
        ((u.step direction cancelled).stream.pacing direction).allowance =
      ((u.step direction cancelled).side direction).granted +
        ((u.step direction cancelled).side direction).owed := by
  have htransfer : (u.world direction).transfer = (u.side direction).transfer := by rw [world_eq]
  have hpacing : (u.step direction cancelled).stream.pacing direction =
      ((u.world direction).advance cancelled).2.pacing := by rw [← pacing_world, world_step_self]
  have haccounts := (World.step_advance cancelled (u.world direction)).accounts hsound
  rw [pacing_world, htransfer] at haccounts
  have howed := (u.side direction).owed_record ((u.world direction).advance cancelled).1
    ((u.world direction).advance cancelled).2.transfer
  -- What the call owes now stands for what it owed, in the account of the step as in the record.
  rw [hpacing, side_step_self, Side.moved_record, Side.granted_record]
  omega

/-- Everything that may happen keeps the account of a direction. -/
theorem accounted_meet {direction : Direction} (u : Usage α) (e : Event α)
    (h : Accounted direction u) : Accounted direction (u.meet e) := by
  obtain ⟨cancelled, rfl⟩ | ⟨hside, hpacing⟩ := u.meet_cases direction e
  · refine ⟨u.sound_meet _ h.sound, conserved_step cancelled h.sound h.conserved, ?_⟩
    intro transfer hmem hmode
    change transfer ∈ ((u.step direction cancelled).side direction).stopped at hmem
    rw [side_step_self] at hmem
    obtain hmem | rfl := Side.mem_stopped_record _ _ _ hmem
    · exact h.stopped transfer hmem hmode
    · exact h.sound.owed_eq_zero hmode
  · refine ⟨u.sound_meet e h.sound, ?_, ?_⟩
    · rw [hside, hpacing]
      exact h.conserved
    · rw [hside]
      exact h.stopped

omit [Quantity α] in
/-- The account of a stream that was not used so far is clear. -/
theorem accounted_idle {direction : Direction} {stream : Stream α} (scheduler : Scheduler α)
    (mail : Mail α) (h : (stream.pacing direction).allowance = 0) :
    Accounted direction (idle stream scheduler mail) := by
  cases direction <;>
    exact ⟨trivial, (Nat.zero_add _).trans h, fun _ hmem => absurd hmem List.not_mem_nil⟩

omit [Quantity α] in
/-- A call that begins keeps the account of a direction. -/
theorem accounted_call {direction : Direction} (u : Usage α) (call : Call)
    (h : Accounted direction u) : Accounted direction (u.call call) := by
  by_cases hdirection : call.mode.direction = direction
  · refine ⟨u.sound_call call h.sound, ?_, ?_⟩
    · rw [side_call_self hdirection, Side.moved_begin, Side.granted_begin, Side.owed_begin]
      exact h.conserved
    · intro transfer hmem hmode
      rw [side_call_self hdirection] at hmem
      obtain hmem | rfl := Side.mem_stopped_begin _ _ hmem
      · exact h.stopped transfer hmem hmode
      · exact h.sound.owed_eq_zero hmode
  · refine ⟨u.sound_call call h.sound, ?_, ?_⟩
    · rw [side_call_of_ne hdirection]
      exact h.conserved
    · rw [side_call_of_ne hdirection]
      exact h.stopped

/-- The account of a direction over any calls, whatever happens between their steps. What was moved
under an allowance and what is still held add up to what was granted, unless a paced write is amid a
piece of its allowance, or was stopped there: what got through of such a piece is moved, and nothing
was taken off the allowance for it. At every step a grant comes when nothing is held, and a transfer
stays within the allowance and within the buffer of its caller. -/
theorem allowance_conserved (read write : RuleSetId) (peer : Peer) (inner : Inner)
    (scheduler : Scheduler α) (mail : Mail α) (calls : List (Call × List (Event α)))
    (direction : Direction) :
    let u := (idle { Stream.split read write peer with inner } scheduler mail).serve calls
    let side := u.side direction
    side.moved + (u.stream.pacing direction).allowance = side.granted + side.owed ∧
      ((side.transfer.mode = .writePaced → side.transfer.phase.isEnd = true) →
        (∀ transfer ∈ side.stopped, transfer.mode ≠ .writePaced) → side.owed = 0) ∧
      ∀ cancelled, (u.world direction).Balances ((u.world direction).advance cancelled) := by
  intro u side
  have hbegins : (({ Stream.split read write peer with inner } : Stream α).pacing
      direction).allowance = 0 := by cases direction <;> rfl
  have haccounted : Accounted direction u :=
    serve_induction accounted_meet accounted_call (accounted_idle scheduler mail hbegins) calls
  exact ⟨haccounted.conserved, haccounted.owed_eq_zero, fun cancelled =>
    (World.step_advance cancelled _).balances haccounted.sound⟩

/-- A write of five bytes gets a grant of three and moves them. It is cancelled when a grant of four
has arrived, and its direction keeps that: a write of two bytes gets through without another one. -/
theorem allowance_kept_behind_cancelled_write :
    let scheduler : Scheduler ℚ := { ruleSets := [{ budget := 10 }] }
    let step : Event ℚ := .step .write false
    let calls : List (Call × List (Event ℚ)) :=
      [({ mode := .writePaced, rest := [1, 2, 3, 4, 5] },
          [step, step, .schedule scheduler [(0, .grant (.bytes 3 0))], step, step, step, step, step,
            .schedule scheduler [(0, .grant (.bytes 4 0))], .step .write true]),
        ({ mode := .writePaced, rest := [6, 7] }, List.replicate 4 step)]
    let inner : Inner := {}
    let u := (idle { Stream.split ⟨0⟩ ⟨0⟩ (.named "peer") with inner } scheduler []).serve calls
    let side := u.side .write
    u.stream.output = [1, 2, 3, 6, 7] ∧ side.granted = 7 ∧ side.moved = 5 ∧
      (side.transfer.mode = .writePaced ∧ side.transfer.phase.isEnd = true) ∧
      (∀ transfer ∈ side.stopped, transfer.mode ≠ .writePaced) ∧ side.owed = 0 ∧
      (u.stream.pacing .write).allowance = 2 := by
  intro scheduler step calls inner u side
  have hgranted : side.granted = 7 := by decide +kernel
  have hmoved : side.moved = 5 := by decide +kernel
  have hmode : side.transfer.mode = .writePaced := by decide +kernel
  have hend : side.transfer.phase.isEnd = true := by decide +kernel
  have hstopped : ∀ transfer ∈ side.stopped, transfer.mode ≠ .writePaced := by decide +kernel
  have hall := allowance_conserved ⟨0⟩ ⟨0⟩ (.named "peer") inner scheduler [] calls .write
  -- reducible, so that the calls are not run once more to compare the two accounts
  have hconserved : side.moved + (u.stream.pacing .write).allowance =
      side.granted + side.owed := by
    with_reducible exact hall.1
  have hnone : side.owed = 0 := by
    with_reducible exact hall.2.1 (fun _ => hend) hstopped
  refine ⟨by decide +kernel, hgranted, hmoved, ⟨hmode, hend⟩, hstopped, hnone, ?_⟩
  omega

end Usage

end HttpRelay.Throttle
