import HttpRelay.Throttle.Stream
import Mathlib.Data.List.Basic

/-!
# Steps of a throttled transfer

Between any two steps of a transfer the scheduler, the far side and everyone else may act. What a
transfer does is told by what its single steps can do, and what is true of it throughout by what
each of these keeps.

* `World.Step`, `World.step_advance`: the things that a step can do;
* `World.isLast_resume`: a transfer that is resumed returns or has to wait;
* `World.Sound`, `World.Step.sound`: what every step keeps of the piece that a transfer is at.
-/

namespace HttpRelay.Throttle

/-- There is one paced transfer of each direction. -/
theorem Mode.eq_writePaced {mode : Mode} (hpaced : mode.isPaced = true)
    (hwrite : mode.direction = .write) : mode = .writePaced := by
  cases mode <;> simp_all [isPaced, direction]

/-- A paced write does not read. -/
theorem Mode.ne_writePaced {mode : Mode} (hread : mode.direction = .read) :
    mode ≠ .writePaced := by
  rintro rfl
  cases hread

/-- Where there is room, something is written. -/
theorem Inner.accepts_pos {inner : Inner} (hroom : inner.room ≠ some 0) {count : Nat}
    (hcount : 0 < count) : 0 < inner.accepts count := by
  unfold accepts
  cases hlimit : inner.room with
  | none => simpa using hcount
  | some room =>
    rw [hlimit] at hroom
    simp only [Option.getD_some]
    have : room ≠ 0 := fun hzero => hroom (congrArg some hzero)
    omega

/-- What is true of a piece of a transfer that a step is about to move. -/
structure Moving (mode : Mode) (wanted allowance limit begun : Nat) (covered : Bool) : Prop where
  /-- No more is asked for than is wanted. -/
  limit_le : limit ≤ begun + wanted
  /-- Only a paced write takes several steps for a piece. -/
  begun_eq : begun = 0 ∨ mode = .writePaced
  /-- Something is left of the piece. -/
  begun_lt : (covered || mode.isPaced) = true → begun < limit
  /-- No more is asked for than was allowed. -/
  limit_le_allowance : covered = true → limit ≤ allowance
  /-- A paced transfer does not pass over an allowance that it holds. -/
  allowance_eq : covered = false → mode.isPaced = true → allowance = 0

namespace Moving

variable {mode : Mode} {wanted allowance limit begun : Nat} {covered : Bool}

/-- Any other transfer than a paced write is at the front of its piece. -/
theorem begun_eq_zero (h : Moving mode wanted allowance limit begun covered)
    (hmode : mode ≠ .writePaced) : begun = 0 := h.begun_eq.resolve_right hmode

/-- What is left of a piece is wanted. -/
theorem sub_le (h : Moving mode wanted allowance limit begun covered) :
    limit - begun ≤ wanted := by
  have hle := h.limit_le
  omega

end Moving

/-- What is true of a transfer in a phase. -/
def Phase.Sound (mode : Mode) (wanted allowance : Nat) : Phase → Prop
  | .asks => wanted ≠ 0
  | .holds _ => wanted ≠ 0 ∧ allowance = 0
  | .moves limit begun covered => Moving mode wanted allowance limit begun covered
  | .ready | .returns _ => True

/-- Nothing is claimed of a transfer at the end of a round. -/
theorem Phase.sound_of_cases {P : Prop} {phase : Phase}
    (h : (∃ outcome, phase = .returns outcome) ∨ phase = .ready ∧ P) (mode : Mode)
    (wanted allowance : Nat) : phase.Sound mode wanted allowance := by
  obtain ⟨outcome, rfl⟩ | ⟨rfl, -⟩ := h <;> trivial

namespace Transfer

/-- A read goes on only if bytes came and it is to fill its buffer. -/
theorem behindRead_cases (t : Transfer) (limit count : Nat) :
    (∃ outcome, t.behindRead limit count = .returns outcome) ∨
      t.behindRead limit count = .ready ∧ t.mode.isWhole = true ∧ 0 < count := by
  unfold behindRead
  split
  next hmode =>
    split
    next hlimit =>
      simp only [Bool.and_eq_true, decide_eq_true_eq] at hlimit
      exact .inr ⟨rfl, by rw [hmode]; rfl, hlimit.2⟩
    next => exact .inl ⟨_, rfl⟩
  next hmode =>
    split
    next => exact .inl ⟨_, rfl⟩
    next hcount => exact .inr ⟨rfl, by rw [hmode]; rfl, Nat.pos_of_ne_zero hcount⟩
  next => exact .inl ⟨_, rfl⟩

/-- A write goes on only if bytes were taken and it is to write all of them. -/
theorem behindWrite_cases (t : Transfer) (count : Nat) :
    (∃ outcome, t.behindWrite count = .returns outcome) ∨
      t.behindWrite count = .ready ∧ t.mode.isWhole = true ∧ 0 < count := by
  unfold behindWrite
  split
  next hgoes =>
    simp only [Bool.and_eq_true, decide_eq_true_eq] at hgoes
    exact .inr ⟨rfl, hgoes⟩
  next => exact .inl ⟨_, rfl⟩

end Transfer

namespace World

variable {α : Type} [Quantity α] {w w' : World α} {cancelled : Bool} {out : Deed α × World α}

/-- Where a caller that gives up is left. -/
def quits (w : World α) : Phase := .returns (.failed (.cancelled w.transfer.moved))

/-- What a step of a transfer can do. -/
inductive Step (cancelled : Bool) (w : World α) : Deed α × World α → Prop
  /-- It shuts the write side down. -/
  | shuts (hphase : w.transfer.phase = .ready) (hmode : w.transfer.mode = .shutdown) :
      Step cancelled w
        (.turns, { w with inner := { w.inner with broken := true } }.enter (.returns .done))
  /-- It finds nothing left to be transferred. -/
  | finishes (hphase : w.transfer.phase = .ready) (hwhole : w.transfer.mode.isWhole = true)
      (hwanted : w.transfer.wanted = 0) :
      Step cancelled w (.turns, w.enter (.returns .done))
  /-- It passes the scheduler by. -/
  | passes (hphase : w.transfer.phase = .ready) (hpaced : w.transfer.mode.isPaced = false)
      (hwhole : w.transfer.mode.isWhole = true → w.transfer.wanted ≠ 0) :
      Step cancelled w (.turns, { w with pacing := { w.pacing with waiting := none } }.enter
        (.moves w.transfer.wanted 0 false))
  /-- It will wish for an allowance. -/
  | wishes (hphase : w.transfer.phase = .ready) (hwanted : w.transfer.wanted ≠ 0) :
      Step cancelled w (.turns, w.enter .asks)
  /-- It goes on with what is left of the allowance. -/
  | covers (hphase : w.transfer.phase = .asks) (hallowance : 0 < w.pacing.allowance) :
      Step cancelled w
        (.turns, w.enter (.moves (min w.pacing.allowance w.transfer.wanted) 0 true))
  /-- It finds a request that waits. -/
  | finds (hphase : w.transfer.phase = .asks) (hallowance : w.pacing.allowance = 0)
      (ticket : Nat) (hwaiting : w.pacing.waiting = some ticket) :
      Step cancelled w (.turns, w.hold ticket)
  /-- It parks a request. -/
  | parks (hphase : w.transfer.phase = .asks) (hallowance : w.pacing.allowance = 0)
      (ticket : Nat) (scheduler : Scheduler α) :
      Step cancelled w (.parks ticket, { w with
        pacing := { w.pacing with requested := w.transfer.wanted }
        scheduler }.hold ticket)
  /-- The rule set has no budget. -/
  | frees (hphase : w.transfer.phase = .asks) (hallowance : w.pacing.allowance = 0) :
      Step cancelled w (.turns, w.enter (.moves w.transfer.wanted 0 false))
  /-- It takes what came of its ticket. -/
  | applies (ticket : Nat) (hphase : w.transfer.phase = .holds ticket) (receipt : Receipt α)
      (hmail : w.mail.lookup ticket = some receipt) :
      Step cancelled w (.applies w.pacing.requested receipt,
        { w.unload ticket with
          pacing := { w.pacing with waiting := none }.receive receipt }.enter .asks)
  /-- It gives up, and keeps a grant. -/
  | keeps (ticket : Nat) (hphase : w.transfer.phase = .holds ticket)
      (hpaced : w.transfer.mode.isPaced = true) (allowance : Allowance α)
      (hmail : w.mail.lookup ticket = some (.grant allowance)) :
      Step cancelled w (.applies w.pacing.requested (.grant allowance),
        { w.unload ticket with pacing := w.pacing.apply allowance }.enter w.quits)
  /-- It gives up without a grant. -/
  | quits (ticket : Nat) (hphase : w.transfer.phase = .holds ticket)
      (hpaced : w.transfer.mode.isPaced = true) (waiting : Option Nat) (mail : Mail α)
      (hmail : mail.length ≤ w.mail.length) :
      Step cancelled w
        (.turns, { w with pacing := { w.pacing with waiting }, mail }.enter w.quits)
  /-- It has to wait. -/
  | waits (awaited : Awaited) : Step cancelled w (w.await awaited)
  /-- It reads. -/
  | reads (limit begun : Nat) (covered : Bool)
      (hphase : w.transfer.phase = .moves limit begun covered)
      (hmode : w.transfer.mode.direction = .read) (data : Bytes) (incoming : Feed)
      (hread : w.inner.incoming.readSome (ε := IoFailure) limit = (.ok data, incoming)) :
      Step cancelled w (.transfers limit data covered,
        { w with
          inner := { w.inner with incoming }
          pacing := if covered || w.transfer.mode.isPaced then w.pacing.spend data.length
            else w.pacing
          transfer := w.transfer.took data }.enter (w.transfer.behindRead limit data.length))
  /-- It writes a part of a piece. -/
  | writesPart (limit begun : Nat) (covered : Bool)
      (hphase : w.transfer.phase = .moves limit begun covered)
      (hmode : w.transfer.mode = .writePaced) (count : Nat) (hcount : 0 < count)
      (hlimit : begun + count < limit) (hrest : count ≤ w.transfer.rest.length) :
      Step cancelled w (.transfers (limit - begun) (w.transfer.rest.take count) covered,
        { w with
          inner := w.inner.put (w.transfer.rest.take count)
          transfer := { w.transfer with rest := w.transfer.rest.drop count } }.enter
            (.moves limit (begun + count) covered))
  /-- It writes a piece to its end. -/
  | writes (limit begun : Nat) (covered : Bool)
      (hphase : w.transfer.phase = .moves limit begun covered)
      (hmode : w.transfer.mode.direction = .write) (count : Nat) (hlimit : count ≤ limit - begun)
      (hrest : count ≤ w.transfer.rest.length)
      (hpositive : begun < limit → 0 < w.transfer.rest.length → 0 < count)
      (hwhole : w.transfer.mode.isPaced = true → 0 < count → limit ≤ begun + count) :
      Step cancelled w (.transfers (limit - begun) (w.transfer.rest.take count) covered,
        { w with
          inner := w.inner.put (w.transfer.rest.take count)
          pacing := w.pacing.spend
            (if w.transfer.mode.isPaced || covered then begun + count else 0)
          transfer := { w.transfer with
            rest := w.transfer.rest.drop count
            moved := w.transfer.moved + (begun + count) } }.enter
              (w.transfer.behindWrite count))
  /-- The stream below fails it. -/
  | fails (limit begun : Nat) (covered : Bool)
      (hphase : w.transfer.phase = .moves limit begun covered) (failure : IoFailure) :
      Step cancelled w (.fails failure, w.enter (.returns (.failed (.io failure))))
  /-- It has returned. -/
  | returned (outcome : Outcome) (hphase : w.transfer.phase = .returns outcome) :
      Step cancelled w (.ends outcome, w)

theorem step_start (hphase : w.transfer.phase = .ready) : Step cancelled w w.start := by
  unfold start
  dsimp only
  split
  next hmode => exact .shuts hphase hmode
  split
  next hleft =>
    obtain ⟨hwhole, hwanted⟩ := (Bool.and_eq_true _ _).mp hleft
    exact .finishes hphase hwhole (of_decide_eq_true hwanted)
  next hmode hleft =>
  have hleft : w.transfer.mode.isWhole = true → w.transfer.wanted ≠ 0 := by
    simpa using hleft
  split
  next hpasses =>
    obtain ⟨hpaced, -⟩ := (Bool.and_eq_true _ _).mp hpasses
    exact .passes hphase (by simpa using hpaced) hleft
  next hpasses =>
    -- With nothing wanted the transfer would be done, or would pass the scheduler by.
    refine .wishes hphase fun hwanted => hpasses ?_
    cases hmode' : w.transfer.mode <;> simp_all [Mode.isPaced, Mode.isWhole]

theorem step_ask (hphase : w.transfer.phase = .asks) : Step cancelled w w.ask := by
  unfold ask
  split
  next hallowance => exact .covers hphase hallowance
  next hallowance =>
    have hallowance : w.pacing.allowance = 0 := Nat.eq_zero_of_not_pos hallowance
    split
    next ticket hwaiting => exact .finds hphase hallowance ticket hwaiting
    next hwaiting =>
      unfold Pacing.park
      cases w.scheduler.enqueue? _ _ with
      | none => exact .frees hphase hallowance
      | some answer => exact .parks hphase hallowance answer.1 answer.2

theorem step_redeem {ticket : Nat} (hphase : w.transfer.phase = .holds ticket) :
    Step cancelled w (w.redeem ticket cancelled) := by
  unfold redeem
  dsimp only
  split
  next hmail hgives => exact .waits (.ticket ticket)
  next hmail hgives =>
    obtain ⟨hpaced, -⟩ := (Bool.and_eq_true _ _).mp hgives
    exact .quits ticket hphase hpaced _ w.mail (Nat.le_refl _)
  next receipt hmail hgives => exact .applies ticket hphase receipt hmail
  next allowance hmail hgives =>
    obtain ⟨hpaced, -⟩ := (Bool.and_eq_true _ _).mp hgives
    exact .keeps ticket hphase hpaced allowance hmail
  next hmail hgives =>
    obtain ⟨hpaced, -⟩ := (Bool.and_eq_true _ _).mp hgives
    exact .quits ticket hphase hpaced w.pacing.waiting _ List.length_eraseP_le

theorem step_pull {limit begun : Nat} {covered : Bool}
    (hphase : w.transfer.phase = .moves limit begun covered)
    (hmode : w.transfer.mode.direction = .read) : Step cancelled w (w.pull limit covered) := by
  unfold pull
  split
  next => exact .waits .input
  next data incoming hread => exact .reads limit begun covered hphase hmode data incoming hread

theorem step_push {limit begun : Nat} {covered : Bool}
    (hphase : w.transfer.phase = .moves limit begun covered)
    (hmode : w.transfer.mode.direction = .write) :
    Step cancelled w (w.push limit begun covered) := by
  unfold push
  split
  next => exact .fails limit begun covered hphase .brokenPipe
  split
  next => exact .waits .room
  next hroom =>
    -- Only that some bytes are taken where some are left matters of the room below.
    have hoffered : w.inner.accepts (limit - begun) ≤ limit - begun := Nat.min_le_left _ _
    have hpositive : begun < limit → 0 < w.inner.accepts (limit - begun) := fun hbegun =>
      Inner.accepts_pos (by simpa [hbegun] using hroom) (Nat.sub_pos_of_lt hbegun)
    generalize w.inner.accepts (limit - begun) = accepted at hoffered hpositive
    obtain ⟨count, hcount⟩ : ∃ count, count = min accepted w.transfer.rest.length := ⟨_, rfl⟩
    rw [← hcount]
    dsimp only
    split
    next hpart =>
      simp only [Bool.and_eq_true, decide_eq_true_eq] at hpart
      obtain ⟨⟨hpaced, hlimit⟩, hpositive⟩ := hpart
      exact .writesPart limit begun covered hphase (Mode.eq_writePaced hpaced hmode) count hpositive
        hlimit (by omega)
    next hwhole =>
      refine .writes limit begun covered hphase hmode count (by omega) (by omega) (by omega) ?_
      intro hpaced hpositive
      simp only [hpaced, Bool.true_and, Bool.and_eq_true, decide_eq_true_eq, not_and] at hwhole
      omega

/-- A step does one of these things. -/
theorem step_advance (cancelled : Bool) (w : World α) : Step cancelled w (w.advance cancelled) := by
  unfold advance
  split
  next hphase => exact step_start hphase
  next hphase => exact step_ask hphase
  next ticket hphase => exact step_redeem hphase
  next limit begun covered hphase =>
    split
    next hmode => exact step_pull hphase hmode
    next hmode => exact step_push hphase hmode
  next outcome hphase => exact .returned outcome hphase

section Resuming

omit [Quantity α] in
/-- What came of a ticket is in the mail no longer once it was taken. -/
theorem length_unload {ticket : Nat} {receipt : Receipt α}
    (h : w.mail.lookup ticket = some receipt) :
    (w.unload ticket).mail.length < w.mail.length := by
  unfold unload
  dsimp only
  generalize w.mail = mail at h
  induction mail with
  | nil => cases h
  | cons entry mail ih =>
    by_cases hkey : ticket = entry.1
    · rw [List.eraseP_cons_of_pos (by simp [hkey])]
      exact Nat.lt_succ_self _
    · rw [List.eraseP_cons_of_neg (by simpa using Ne.symm hkey)]
      rw [List.lookup_cons, beq_false_of_ne hkey] at h
      exact Nat.succ_lt_succ (ih h)

omit [Quantity α] in
/-- Less is left to be done the nearer a phase is to the end of a round. -/
theorem effort_lt_of_remaining_lt (hwanted : w'.transfer.wanted = w.transfer.wanted)
    (hmail : w'.mail.length ≤ w.mail.length) (hremaining : w'.remaining < w.remaining) :
    w'.effort < w.effort := by
  unfold effort
  omega

omit [Quantity α] in
/-- Less is left to be done when something was taken out of the mail. -/
theorem effort_lt_of_length_lt (hwanted : w'.transfer.wanted = w.transfer.wanted)
    (hmail : w'.mail.length < w.mail.length) (hremaining : w'.remaining ≤ w.remaining + 1) :
    w'.effort < w.effort := by
  unfold effort
  omega

omit [Quantity α] in
/-- Less is left to be done when bytes were transferred, even if a new round begins. -/
theorem effort_lt_of_wanted (count : Nat) {limit begun : Nat} {covered : Bool}
    (hphase : w.transfer.phase = .moves limit begun covered)
    (hwanted : w'.transfer.wanted = w.transfer.wanted - count)
    (hmail : w'.mail.length ≤ w.mail.length)
    (hphase' : (∃ outcome, w'.transfer.phase = .returns outcome) ∨
      w'.transfer.phase = .ready ∧ w'.transfer.mode.isWhole = true ∧ 0 < count) :
    w'.effort < w.effort := by
  have hmoves : w.remaining = 2 := by simp only [remaining, hphase]
  -- A new round costs at most what the bytes behind it are worth; the last one ends in a step.
  obtain ⟨outcome, hreturns⟩ | ⟨hready, hwhole, hcount⟩ := hphase'
  · have : w'.remaining = 0 := by simp only [remaining, hreturns]
    unfold effort
    omega
  · by_cases hnone : w'.transfer.wanted = 0
    · have : w'.remaining = 1 := by simp [remaining, hready, hwhole, hnone]
      unfold effort
      omega
    · have : w'.remaining = 5 := by simp [remaining, hready, hnone]
      unfold effort
      omega

/-- A step that is not the last for now leaves less to be done. -/
theorem Step.effort_lt (h : Step cancelled w out) (hlast : out.1.isLast = false) :
    out.2.effort < w.effort := by
  -- Within a round each step is nearer to its end. A receipt leads back to the wish, but it is in the
  -- mail no longer.
  cases h with
  | shuts hphase hmode =>
    have hready : 0 < w.remaining := by simp only [remaining, hphase]; split <;> decide
    exact effort_lt_of_remaining_lt rfl (Nat.le_refl _) hready
  | finishes hphase hwhole hwanted =>
    have hready : 0 < w.remaining := by simp only [remaining, hphase]; split <;> decide
    exact effort_lt_of_remaining_lt rfl (Nat.le_refl _) hready
  | passes hphase hpaced hwhole =>
    have hready : w.remaining = 5 := by
      simp only [remaining, hphase]
      exact if_neg (by simpa using hwhole)
    exact effort_lt_of_remaining_lt rfl (Nat.le_refl _) (by rw [hready]; simp [remaining, enter])
  | wishes hphase hwanted =>
    have hready : w.remaining = 5 := by simp [remaining, hphase, hwanted]
    exact effort_lt_of_remaining_lt rfl (Nat.le_refl _) (by rw [hready]; simp [remaining, enter])
  | covers hphase hallowance =>
    exact effort_lt_of_remaining_lt rfl (Nat.le_refl _) (by simp [remaining, enter, hphase])
  | finds hphase hallowance ticket hwaiting =>
    exact effort_lt_of_remaining_lt rfl (Nat.le_refl _) (by simp [remaining, hold, enter, hphase])
  | parks hphase hallowance ticket scheduler =>
    exact effort_lt_of_remaining_lt rfl (Nat.le_refl _) (by simp [remaining, hold, enter, hphase])
  | frees hphase hallowance =>
    exact effort_lt_of_remaining_lt rfl (Nat.le_refl _) (by simp [remaining, enter, hphase])
  | applies ticket hphase receipt hmail =>
    exact effort_lt_of_length_lt rfl (length_unload hmail) (by simp [remaining, enter, hphase])
  | keeps ticket hphase hpaced allowance hmail =>
    exact effort_lt_of_length_lt rfl (length_unload hmail)
      (by simp [remaining, enter, World.quits, hphase])
  | quits ticket hphase hpaced waiting mail hmail =>
    exact effort_lt_of_remaining_lt rfl hmail (by simp [remaining, enter, World.quits, hphase])
  | waits awaited => cases hlast
  | reads limit begun covered hphase hmode data incoming hread =>
    refine effort_lt_of_wanted data.length hphase ?_ (Nat.le_refl _) ?_
    · simp [enter, Transfer.took, Transfer.wanted, hmode]
    · exact w.transfer.behindRead_cases limit data.length
  | writesPart limit begun covered hphase hmode count hcount hlimit hrest =>
    have : (w.transfer.rest.drop count).length < w.transfer.rest.length := by
      rw [List.length_drop]
      omega
    simp only [effort, remaining, enter, Transfer.wanted, hphase, hmode, Mode.direction]
    omega
  | writes limit begun covered hphase hmode count hlimit hrest hpositive hwhole =>
    refine effort_lt_of_wanted count hphase ?_ (Nat.le_refl _) ?_
    · simp [enter, Transfer.wanted, hmode]
    · exact w.transfer.behindWrite_cases count
  | fails limit begun covered hphase failure =>
    exact effort_lt_of_remaining_lt rfl (Nat.le_refl _) (by simp [remaining, enter, hphase])
  | returned outcome hphase => cases hlast

/-- A transfer that is resumed for enough steps returns or has to wait. -/
theorem isLast_resumeWithin {steps : Nat} :
    ∀ {w : World α}, w.effort < steps → (w.resumeWithin cancelled steps).1.isLast = true := by
  induction steps with
  | zero => intro w h; exact absurd h (Nat.not_lt_zero _)
  | succ steps ih =>
    intro w h
    unfold resumeWithin
    dsimp only
    split
    next hlast => exact hlast
    next hlast =>
      have hless := (step_advance cancelled w).effort_lt (Bool.eq_false_iff.mpr hlast)
      exact ih (by omega)

/-- A transfer that is resumed returns or has to wait: no round of it goes on for ever. -/
theorem isLast_resume (cancelled : Bool) (w : World α) : (w.resume cancelled).1.isLast = true :=
  isLast_resumeWithin (Nat.lt_succ_self _)

end Resuming

section Soundness

variable {limit begun : Nat} {covered : Bool}

/-- What is true of a transfer throughout. -/
def Sound (w : World α) : Prop :=
  Phase.Sound w.transfer.mode w.transfer.wanted w.pacing.allowance w.transfer.phase

omit [Quantity α] in
theorem Sound.wanted_ne (h : w.Sound) (hphase : w.transfer.phase = .asks) :
    w.transfer.wanted ≠ 0 := by
  simpa only [Sound, hphase, Phase.Sound] using h

omit [Quantity α] in
theorem Sound.holding {ticket : Nat} (h : w.Sound) (hphase : w.transfer.phase = .holds ticket) :
    w.transfer.wanted ≠ 0 ∧ w.pacing.allowance = 0 := by
  simpa only [Sound, hphase, Phase.Sound] using h

omit [Quantity α] in
theorem Sound.moving (h : w.Sound) (hphase : w.transfer.phase = .moves limit begun covered) :
    Moving w.transfer.mode w.transfer.wanted w.pacing.allowance limit begun covered := by
  simpa only [Sound, hphase, Phase.Sound] using h

/-- Every step keeps what is true of a transfer. -/
theorem Step.sound (h : Step cancelled w out) (hsound : w.Sound) : out.2.Sound := by
  cases h with
  | shuts | finishes | keeps | quits | fails => trivial
  | passes hphase hpaced hwhole =>
    exact
      { limit_le := by simp [enter, Transfer.wanted]
        begun_eq := .inl rfl
        begun_lt := fun hmoves => by simp [enter, hpaced] at hmoves
        limit_le_allowance := fun hcovered => by cases hcovered
        allowance_eq := fun _ hpaced' => by simp [enter, hpaced] at hpaced' }
  | wishes hphase hwanted => exact hwanted
  | covers hphase hallowance =>
    -- Something is allowed and something is wanted, so that the piece is not empty.
    have hwanted := hsound.wanted_ne hphase
    exact
      { limit_le := by rw [Nat.zero_add]; exact Nat.min_le_right _ _
        begun_eq := .inl rfl
        begun_lt := fun _ => by omega
        limit_le_allowance := fun _ => Nat.min_le_left _ _
        allowance_eq := fun hfree => by cases hfree }
  | finds hphase hallowance ticket hwaiting => exact ⟨hsound.wanted_ne hphase, hallowance⟩
  | parks hphase hallowance ticket scheduler => exact ⟨hsound.wanted_ne hphase, hallowance⟩
  | frees hphase hallowance =>
    exact
      { limit_le := by rw [Nat.zero_add]; exact Nat.le_refl _
        begun_eq := .inl rfl
        begun_lt := fun _ => Nat.pos_of_ne_zero (hsound.wanted_ne hphase)
        limit_le_allowance := fun hcovered => by cases hcovered
        allowance_eq := fun _ _ => hallowance }
  | applies ticket hphase receipt hmail => exact (hsound.holding hphase).1
  | waits awaited =>
    change Phase.Sound w.transfer.mode w.transfer.wanted w.pacing.allowance
      (if w.transfer.mode.isPaced then w.transfer.phase else .ready)
    split
    · exact hsound
    · trivial
  | reads limit begun covered hphase hmode data incoming hread =>
    exact Phase.sound_of_cases (w.transfer.behindRead_cases limit data.length) _ _ _
  | writesPart limit begun covered hphase hmode count hcount hlimit hrest =>
    have hmoving := hsound.moving hphase
    have hle := hmoving.limit_le
    exact
      { limit_le := by
          simp only [Transfer.wanted, hmode, Mode.direction] at hle
          simp only [enter, Transfer.wanted, hmode, Mode.direction, List.length_drop]
          omega
        begun_eq := .inr hmode
        begun_lt := fun _ => hlimit
        limit_le_allowance := hmoving.limit_le_allowance
        allowance_eq := hmoving.allowance_eq }
  | writes limit begun covered hphase hmode count hlimit hrest hpositive hwhole =>
    exact Phase.sound_of_cases (w.transfer.behindWrite_cases count) _ _ _
  | returned outcome hphase => exact hsound

end Soundness

section Frame

/-- No step changes the peer. -/
theorem Step.peer_eq (h : Step cancelled w out) : out.2.peer = w.peer := by cases h <;> rfl

/-- No step changes what the call is for. -/
theorem Step.mode_eq (h : Step cancelled w out) :
    out.2.transfer.mode = w.transfer.mode := by cases h <;> rfl

/-- A call that reads leaves the write side alone. -/
theorem Step.output_eq (h : Step cancelled w out)
    (hread : w.transfer.mode.direction = .read) : out.2.inner.output = w.inner.output := by
  cases h with
  | shuts hphase hmode => rw [hmode] at hread; cases hread
  | writesPart limit begun covered hphase hmode => rw [hmode] at hread; cases hread
  | writes limit begun covered hphase hmode => rw [hmode] at hread; cases hread
  | _ => rfl

/-- A call that writes leaves the read side alone. -/
theorem Step.incoming_eq (h : Step cancelled w out)
    (hwrite : w.transfer.mode.direction = .write) : out.2.inner.incoming = w.inner.incoming := by
  cases h with
  | reads limit begun covered hphase hmode => rw [hmode] at hwrite; cases hwrite
  | _ => rfl

end Frame

end World

end HttpRelay.Throttle
