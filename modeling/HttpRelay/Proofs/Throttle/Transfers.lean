import HttpRelay.Proofs.Throttle.Isolation
import HttpRelay.Proofs.Throttle.Usage
import HttpRelay.Proofs.Transport.Buffered

/-!
# Exact transfers

A paced transfer goes through its buffer in pieces, of allowances left over from earlier calls, of
new ones, and of none at all. Whatever its caller is told when it returns is exact: the bytes that
were written are a front of its buffer of the length told, and the bytes that were read are the next
ones that arrived.

* `World.Writing`, `World.Reading`: how far a transfer has got;
* `Usage.Delivers`: calls that write one buffer, each one what the one before left over;
* `Usage.transfers_exact`: what paced transfers come to, whatever happens between their steps.
-/

namespace HttpRelay.Throttle

/-- Bytes of the piece under way that got through. -/
def Phase.begun : Phase → Nat
  | .moves _ begun _ => begun
  | _ => 0

/-- How many bytes a step asked the stream below for, and those that were transferred. -/
def Deed.piece? {α : Type} : Deed α → Option (Nat × Bytes)
  | .transfers limit data _ => some (limit, data)
  | _ => none

/-- The last transfer of some steps was short of what was asked for. -/
def EndsShort {α : Type} (deeds : List (Deed α)) : Prop :=
  ∃ limit data, (deeds.filterMap Deed.piece?).getLast? = some (limit, data) ∧ data.length < limit

/-- What is written comes behind what was. -/
@[simp] theorem Inner.output_put (inner : Inner) (bytes : Bytes) :
    (inner.put bytes).output = inner.output ++ bytes := by
  simp [put, output]

/-- A step that transferred nothing leaves the last transfer what it was. -/
theorem EndsShort.append_iff {α : Type} {deeds : List (Deed α)} {deed : Deed α}
    (h : deed.piece? = none) : EndsShort (deeds ++ [deed]) ↔ EndsShort deeds := by
  simp [EndsShort, h]

/-- Steps that end with a short transfer end short. -/
theorem EndsShort.of_transfers {α : Type} {deeds : List (Deed α)} {limit : Nat} {data : Bytes}
    {covered : Bool} (h : data.length < limit) :
    EndsShort (deeds ++ [.transfers limit data covered]) :=
  ⟨limit, data, by simp [Deed.piece?], h⟩

/-- What is read comes behind what was. -/
theorem Transfer.data_took (t : Transfer) (data : Bytes) : (t.took data).data = t.data ++ data := by
  simp [Transfer.data, took]

namespace World

variable {α : Type} [Quantity α] {w w' : World α} {cancelled : Bool} {out : Deed α × World α}

section Writing

variable {before buf part : Bytes}

/-- How far a paced write of `buf` has got, on a stream to which `before` was written before it:
`part` got through. -/
structure Writing (before buf part : Bytes) (w : World α) : Prop where
  mode_eq : w.transfer.mode = .writePaced
  part_append : part ++ w.transfer.rest = buf
  output_eq : w.inner.output = before ++ part
  /-- Every byte that got through is counted, or belongs to the piece under way. -/
  length_eq : (∀ failure, w.transfer.phase ≠ .returns (.failed (.io failure))) →
    part.length = w.transfer.moved + w.transfer.phase.begun
  rest_eq : w.transfer.phase = .returns .done → w.transfer.rest = []
  count_eq : ∀ count, w.transfer.phase = .returns (.failed (.cancelled count)) →
    count = w.transfer.moved

omit [Quantity α] in
/-- A write that goes on elsewhere is as far as it was. -/
theorem Writing.turn (h : Writing before buf part w)
    (hmode : w'.transfer.mode = w.transfer.mode) (hrest : w'.transfer.rest = w.transfer.rest)
    (hmoved : w'.transfer.moved = w.transfer.moved) (houtput : w'.inner.output = w.inner.output)
    (hbegun : w'.transfer.phase.begun = w.transfer.phase.begun)
    (hfailed : ∀ failure, w.transfer.phase = .returns (.failed (.io failure)) →
      w'.transfer.phase = w.transfer.phase)
    (hdone : w'.transfer.phase = .returns .done →
      w.transfer.phase = .returns .done ∨ w.transfer.rest = [])
    (hcount : ∀ count, w'.transfer.phase = .returns (.failed (.cancelled count)) →
      w.transfer.phase = .returns (.failed (.cancelled count)) ∨ count = w.transfer.moved) :
    Writing before buf part w' where
  mode_eq := hmode.trans h.mode_eq
  part_append := by rw [hrest, h.part_append]
  output_eq := houtput.trans h.output_eq
  length_eq := fun hgoes => by
    rw [hmoved, hbegun]
    exact h.length_eq fun failure hphase =>
      hgoes failure ((hfailed failure hphase).trans hphase)
  rest_eq := fun hphase => hrest.trans ((hdone hphase).elim h.rest_eq id)
  count_eq := fun count hphase => by
    rw [hmoved]
    exact (hcount count hphase).elim (h.count_eq count) id

omit [Quantity α] in
/-- How far a write has got depends on the call and on what was written. -/
theorem Writing.congr (h : Writing before buf part w)
    (hmode : w'.transfer.mode = w.transfer.mode) (hrest : w'.transfer.rest = w.transfer.rest)
    (hmoved : w'.transfer.moved = w.transfer.moved)
    (hphase : w'.transfer.phase = w.transfer.phase) (houtput : w'.inner.output = w.inner.output) :
    Writing before buf part w' :=
  h.turn hmode hrest hmoved houtput (congrArg _ hphase) (fun _ _ => hphase)
    (fun hdone => .inl (hphase.symm.trans hdone)) fun _ hcount => .inl (hphase.symm.trans hcount)

omit [Quantity α] in
/-- A write that got bytes through is as much further. -/
theorem Writing.put {count : Nat} (h : Writing before buf part w)
    (hle : count ≤ w.transfer.rest.length) (hmode : w'.transfer.mode = w.transfer.mode)
    (hrest : w'.transfer.rest = w.transfer.rest.drop count)
    (hinner : w'.inner = w.inner.put (w.transfer.rest.take count))
    (hgoes : ∀ outcome, w.transfer.phase ≠ .returns outcome)
    (hgoes' : ∀ outcome, w'.transfer.phase ≠ .returns outcome)
    (hcount : w'.transfer.moved + w'.transfer.phase.begun =
      w.transfer.moved + w.transfer.phase.begun + count) :
    Writing before buf (part ++ w.transfer.rest.take count) w' where
  mode_eq := hmode.trans h.mode_eq
  part_append := by rw [hrest, List.append_assoc, List.take_append_drop, h.part_append]
  output_eq := by rw [hinner, Inner.output_put, h.output_eq, List.append_assoc]
  length_eq := fun _ => by
    rw [List.length_append, List.length_take_of_le hle, h.length_eq fun failure => hgoes _, hcount]
  rest_eq := fun hphase => absurd hphase (hgoes' _)
  count_eq := fun _ hphase => absurd hphase (hgoes' _)

/-- Every step of a paced write keeps the account of how far it has got. -/
theorem Step.writing (h : Step cancelled w out) (hsound : w.Sound)
    (hwriting : Writing before buf part w) : ∃ part', Writing before buf part' out.2 := by
  have hmode := hwriting.mode_eq
  have hpaced : w.transfer.mode.isPaced = true := by rw [hmode]; rfl
  have hwanted : w.transfer.wanted = w.transfer.rest.length := by rw [Transfer.wanted, hmode]; rfl
  cases h with
  | shuts hphase hshuts => rw [hmode] at hshuts; cases hshuts
  | finishes hphase hwhole hnone =>
    have hrest : w.transfer.rest = [] := List.eq_nil_of_length_eq_zero (hwanted.symm.trans hnone)
    refine ⟨part, hwriting.turn rfl rfl rfl rfl ?_ (by simp [hphase]) (fun _ => .inr hrest)
      fun _ hcount => by cases hcount⟩
    rw [hphase]
    rfl
  | passes hphase hpasses => rw [hpaced] at hpasses; cases hpasses
  | wishes hphase | covers hphase | finds hphase | parks hphase | frees hphase | applies _ hphase =>
    refine ⟨part, hwriting.turn rfl rfl rfl rfl ?_ (by simp [hphase])
      (fun hdone => by cases hdone) fun _ hcount => by cases hcount⟩
    rw [hphase]
    rfl
  | keeps ticket hphase | quits ticket hphase =>
    refine ⟨part, hwriting.turn rfl rfl rfl rfl ?_ (by simp [hphase])
      (fun hdone => by cases hdone) ?_⟩
    · rw [hphase]
      rfl
    · intro count hcount
      cases hcount
      exact .inr rfl
  | waits awaited =>
    have hphase : (w.await awaited).2.transfer.phase = w.transfer.phase := if_pos hpaced
    exact ⟨part, hwriting.congr rfl rfl rfl hphase rfl⟩
  | reads limit begun covered hphase hread => rw [hmode] at hread; cases hread
  | writesPart limit begun covered hphase hmode' count hcount hlimit hrest =>
    refine ⟨_, hwriting.put hrest rfl rfl rfl (by simp [hphase])
      (fun _ hreturns => by cases hreturns) ?_⟩
    rw [hphase]
    exact (Nat.add_assoc _ _ _).symm
  | writes limit begun covered hphase hmode' count hlimit hrest hpositive hwhole =>
    -- A piece that is not through has bytes left, and there was room for some of them.
    have hpositive : 0 < count := by
      have hmoving := hsound.moving hphase
      have hbegun := hmoving.begun_lt (by rw [hpaced, Bool.or_true])
      have hle := hmoving.sub_le
      exact hpositive hbegun (by omega)
    have hready : w.transfer.behindWrite count = .ready := by
      simp [Transfer.behindWrite, hmode, Mode.isWhole, hpositive]
    rw [hready]
    refine ⟨_, hwriting.put hrest rfl rfl rfl (by simp [hphase])
      (fun _ hreturns => by cases hreturns) ?_⟩
    rw [hphase]
    exact (Nat.add_assoc _ _ _).symm
  | fails limit begun covered hphase failure =>
    -- What got through of the piece that failed is not counted.
    exact ⟨part,
      { mode_eq := hmode
        part_append := hwriting.part_append
        output_eq := hwriting.output_eq
        length_eq := fun hfails => absurd rfl (hfails failure)
        rest_eq := fun hdone => by cases hdone
        count_eq := fun _ hcount => by cases hcount }⟩
  | returned outcome hphase => exact ⟨part, hwriting⟩

omit [Quantity α] in
/-- A paced write that is done has written its buffer. -/
theorem Writing.output_of_done (h : Writing before buf part w)
    (hphase : w.transfer.phase = .returns .done) :
    w.transfer.moved = buf.length ∧ w.inner.output = before ++ buf := by
  have hlength := h.length_eq (by simp [hphase])
  have hpart : part = buf := by simpa only [h.rest_eq hphase, List.append_nil] using h.part_append
  rw [hphase, hpart] at hlength
  exact ⟨hlength.symm, hpart ▸ h.output_eq⟩

omit [Quantity α] in
/-- A paced write that was cancelled tells how long a front of its buffer it has written. -/
theorem Writing.output_of_cancelled {count : Nat} (h : Writing before buf part w)
    (hphase : w.transfer.phase = .returns (.failed (.cancelled count))) :
    count ≤ buf.length ∧ w.inner.output = before ++ buf.take count := by
  have hlength := h.length_eq (by simp [hphase])
  have hcount : part.length = count := by rw [h.count_eq count hphase, hlength, hphase]; rfl
  rw [← h.part_append, List.length_append, List.take_left' hcount]
  exact ⟨by omega, h.output_eq⟩

end Writing

section Reading

variable {content : Bytes} {want : Nat} {deeds : List (Deed α)}

/-- How far a paced read of `want` bytes has got, in steps that did `deeds`, on a stream where
`content` is everything that arrived since it began or was there before. -/
structure Reading (content : Bytes) (want : Nat) (deeds : List (Deed α)) (w : World α) : Prop where
  mode_eq : w.transfer.mode = .readPaced
  data_append : w.transfer.data ++ w.inner.incoming.arrived = content
  length_eq : w.transfer.data.length = w.transfer.moved
  want_eq : w.transfer.moved + w.transfer.want = want
  count_eq : ∀ count, w.transfer.phase = .returns (.failed (.cancelled count)) →
    count = w.transfer.moved
  /-- A read that ends early was cut short by the stream below. -/
  short : w.transfer.phase = .returns .done → w.transfer.want = 0 ∨ EndsShort deeds

omit [Quantity α] in
/-- A read that goes on elsewhere is as far as it was. -/
theorem Reading.turn {deed : Deed α} (h : Reading content want deeds w)
    (hdeed : deed.piece? = none) (hmode : w'.transfer.mode = w.transfer.mode)
    (hgot : w'.transfer.got = w.transfer.got) (hmoved : w'.transfer.moved = w.transfer.moved)
    (hwant : w'.transfer.want = w.transfer.want)
    (harrived : w'.inner.incoming = w.inner.incoming)
    (hdone : w'.transfer.phase = .returns .done →
      w.transfer.phase = .returns .done ∨ w.transfer.want = 0)
    (hcount : ∀ count, w'.transfer.phase = .returns (.failed (.cancelled count)) →
      w.transfer.phase = .returns (.failed (.cancelled count)) ∨ count = w.transfer.moved) :
    Reading content want (deeds ++ [deed]) w' where
  mode_eq := hmode.trans h.mode_eq
  data_append := by rw [Transfer.data, hgot, harrived]; exact h.data_append
  length_eq := by rw [Transfer.data, hgot, hmoved]; exact h.length_eq
  want_eq := by rw [hmoved, hwant]; exact h.want_eq
  count_eq := fun count hphase => by
    rw [hmoved]
    exact (hcount count hphase).elim (h.count_eq count) id
  short := fun hphase => by
    rw [hwant, EndsShort.append_iff hdeed]
    exact (hdone hphase).elim h.short .inl

omit [Quantity α] in
/-- Bytes that arrive are behind what a read has got, and behind what it has not. -/
theorem Reading.arrive {more : Bytes} (h : Reading content want deeds w)
    (htransfer : w'.transfer = w.transfer)
    (harrived : w'.inner.incoming.arrived = w.inner.incoming.arrived ++ more) :
    Reading (content ++ more) want deeds w' where
  mode_eq := by rw [htransfer, h.mode_eq]
  data_append := by rw [htransfer, harrived, ← List.append_assoc, h.data_append]
  length_eq := by rw [htransfer, h.length_eq]
  want_eq := by rw [htransfer, h.want_eq]
  count_eq := by rw [htransfer]; exact h.count_eq
  short := by rw [htransfer]; exact h.short

/-- Every step of a paced read keeps the account of how far it has got. -/
theorem Step.reading (h : Step cancelled w out) (hsound : w.Sound)
    (hreading : Reading content want deeds w) :
    Reading content want (deeds ++ [out.1]) out.2 := by
  have hmode := hreading.mode_eq
  have hpaced : w.transfer.mode.isPaced = true := by rw [hmode]; rfl
  have hwanted : w.transfer.wanted = w.transfer.want := by rw [Transfer.wanted, hmode]; rfl
  cases h with
  | shuts hphase hshuts => rw [hmode] at hshuts; cases hshuts
  | finishes hphase hwhole hnone =>
    exact hreading.turn rfl rfl rfl rfl rfl rfl (fun _ => .inr (hwanted.symm.trans hnone))
      fun _ hcount => by cases hcount
  | passes hphase hpasses => rw [hpaced] at hpasses; cases hpasses
  | wishes | covers | finds | parks | frees | applies | fails =>
    exact hreading.turn rfl rfl rfl rfl rfl rfl (fun hdone => by cases hdone)
      fun _ hcount => by cases hcount
  | keeps | quits =>
    refine hreading.turn rfl rfl rfl rfl rfl rfl (fun hdone => by cases hdone)
      fun count hcount => .inr ?_
    cases hcount
    rfl
  | waits awaited =>
    have hphase : (w.await awaited).2.transfer.phase = w.transfer.phase := if_pos hpaced
    exact hreading.turn rfl rfl rfl rfl rfl rfl (fun hdone => .inl (hphase.symm.trans hdone))
      fun _ hcount => .inl (hphase.symm.trans hcount)
  | reads limit begun covered hphase hread data incoming hdata =>
    have hmoving := hsound.moving hphase
    have hpositive : begun < limit := hmoving.begun_lt (by rw [hpaced, Bool.or_true])
    have hle : limit - begun ≤ w.transfer.want := hwanted ▸ hmoving.sub_le
    obtain rfl := hmoving.begun_eq_zero (Mode.ne_writePaced hread)
    obtain ⟨harrived, hlength⟩ := Feed.readSome_ok hdata
    exact
      { mode_eq := hmode
        data_append := by
          change (w.transfer.took data).data ++ incoming.arrived = content
          rw [Transfer.data_took, List.append_assoc, ← harrived, hreading.data_append]
        length_eq := by
          change (w.transfer.took data).data.length = w.transfer.moved + data.length
          rw [Transfer.data_took, List.length_append, hreading.length_eq]
        want_eq := by
          have := hreading.want_eq
          change w.transfer.moved + data.length + (w.transfer.want - data.length) = want
          omega
        count_eq := fun count hcount => by
          have hcount : w.transfer.behindRead limit data.length = _ := hcount
          simp only [Transfer.behindRead, hmode] at hcount
          split at hcount <;> cases hcount
        short := fun hdone => by
          -- With all that was asked for it would have gone on.
          have hdone : w.transfer.behindRead limit data.length = .returns .done := hdone
          simp only [Transfer.behindRead, hmode] at hdone
          split at hdone
          next => cases hdone
          next hcut =>
            simp only [Bool.and_eq_true, decide_eq_true_eq] at hcut
            exact .inr (EndsShort.of_transfers (by omega)) }
  | writesPart limit begun covered hphase hwrite => rw [hmode] at hwrite; cases hwrite
  | writes limit begun covered hphase hwrite => rw [hmode] at hwrite; cases hwrite
  | returned outcome hphase =>
    exact hreading.turn rfl rfl rfl rfl rfl rfl .inl fun _ => .inl

end Reading

end World

/-- A paced write of a buffer. -/
def Call.writes (buf : Bytes) : Call := { mode := .writePaced, rest := buf }

/-- A paced read of some bytes. -/
def Call.reads (want : Nat) : Call := { mode := .readPaced, want }

namespace Usage

variable {α : Type} [Quantity α]

section Writes

/-- What a paced write of `buf` has come to, from one state to another. One that is done has told its
length; one that was cancelled tells how long a front of it got through. -/
def Wrote (u : Usage α) (buf : Bytes) (u' : Usage α) : Prop :=
  match (u'.side .write).transfer.phase with
  | .returns .done =>
    (u'.side .write).transfer.moved = buf.length ∧ u'.stream.output = u.stream.output ++ buf
  | .returns (.failed (.cancelled count)) =>
    count ≤ buf.length ∧ u'.stream.output = u.stream.output ++ buf.take count
  | _ => True

/-- A buffer is written by one paced write, or by several of them: each was cancelled but the last,
and the next one got what was left over. Between them the stream may be read from. -/
inductive Delivers : Usage α → Bytes → Usage α → Prop
  | done {u : Usage α} {buf : Bytes} (events : List (Event α))
      (h : (((u.call (.writes buf)).follow events).side
        .write).transfer.phase = .returns .done) :
      Delivers u buf ((u.call (.writes buf)).follow events)
  | resumed {u u' : Usage α} {buf : Bytes} (events : List (Event α)) (count : Nat)
      (h : (((u.call (.writes buf)).follow events).side
        .write).transfer.phase = .returns (.failed (.cancelled count)))
      (between : List (Call × List (Event α)))
      (hread : ∀ entry ∈ between, entry.1.mode.direction = .read)
      (hrest : Delivers (((u.call (.writes buf)).follow events).serve between) (buf.drop count) u') :
      Delivers u buf u'

/-- The account of a paced write, on its own direction. -/
structure WritesOn (before buf : Bytes) (u : Usage α) : Prop where
  sound : (u.world .write).Sound
  writing : ∃ part, World.Writing before buf part (u.world .write)

/-- Everything that may happen keeps the account of a paced write. -/
theorem writesOn_meet {before buf : Bytes} (u : Usage α) (e : Event α)
    (h : WritesOn before buf u) : WritesOn before buf (u.meet e) := by
  refine ⟨u.sound_meet e h.sound, ?_⟩
  obtain ⟨part, hwriting⟩ := h.writing
  obtain ⟨cancelled, rfl⟩ | ⟨hside, houtput⟩ := u.meet_write_cases e
  · have hstep := (World.step_advance cancelled (u.world .write)).writing h.sound hwriting
    rwa [← world_step_self] at hstep
  · have htransfer : ((u.meet e).world .write).transfer = (u.world .write).transfer := by
      rw [world_eq, world_eq, hside]
    exact ⟨part, hwriting.congr (congrArg _ htransfer) (congrArg _ htransfer)
      (congrArg _ htransfer) (congrArg _ htransfer) houtput⟩

omit [Quantity α] in
theorem writesOn_call (u : Usage α) (buf : Bytes) :
    WritesOn u.stream.output buf (u.call (.writes buf)) := by
  have hside : (u.call (.writes buf)).side .write = (u.side .write).begin (.writes buf) :=
    side_call_self rfl
  refine ⟨u.sound_call_self rfl, [], ?_⟩
  rw [world_eq, hside]
  exact
    { mode_eq := rfl
      part_append := rfl
      output_eq := (List.append_nil _).symm
      length_eq := fun _ => rfl
      rest_eq := fun hdone => by cases hdone
      count_eq := fun _ hcount => by cases hcount }

/-- A paced write is exact, whatever happens between its steps. -/
theorem wrote_follow (u : Usage α) (buf : Bytes) (events : List (Event α)) :
    u.Wrote buf ((u.call (.writes buf)).follow events) := by
  obtain ⟨-, part, hwriting⟩ := follow_induction writesOn_meet (u.writesOn_call buf) events
  unfold Wrote
  split
  next hphase => exact hwriting.output_of_done hphase
  next count hphase => exact hwriting.output_of_cancelled hphase
  next => trivial

/-- The write direction has returned, and `output` was written. -/
structure Returned (output : Bytes) (u : Usage α) : Prop where
  phase_eq : ∃ outcome, (u.side .write).transfer.phase = .returns outcome
  output_eq : u.stream.output = output

/-- Nothing that may happen makes a write direction that has returned write any more. -/
theorem returned_meet {output : Bytes} (u : Usage α) (e : Event α) (h : Returned output u) :
    Returned output (u.meet e) := by
  obtain ⟨⟨outcome, hphase⟩, houtput⟩ := h
  obtain ⟨cancelled, rfl⟩ | ⟨hside, hsame⟩ := u.meet_write_cases e
  · have hstays : ((u.world .write).advance cancelled).2 = u.world .write := by
      have hphase : (u.world .write).transfer.phase = .returns outcome := hphase
      rw [World.advance, hphase]
    rw [← world_step_self] at hstays
    exact ⟨⟨outcome, (congrArg (·.transfer.phase) hstays).trans hphase⟩,
      (congrArg (·.inner.output) hstays).trans houtput⟩
  · exact ⟨⟨outcome, by rw [hside, hphase]⟩, hsame.trans houtput⟩

/-- Reading from a stream writes nothing. -/
theorem returned_serve {output : Bytes} {calls : List (Call × List (Event α))} :
    ∀ {u : Usage α}, (∀ entry ∈ calls, entry.1.mode.direction = .read) → Returned output u →
      Returned output (u.serve calls) := by
  induction calls with
  | nil => exact fun _ h => h
  | cons entry calls ih =>
    intro u hread h
    have hother : (u.call entry.1).side .write = u.side .write :=
      side_call_of_ne (by rw [hread entry List.mem_cons_self]; decide)
    have hcall : Returned output (u.call entry.1) := ⟨by rw [hother]; exact h.phase_eq, h.output_eq⟩
    exact ih (fun e he => hread e (List.mem_cons_of_mem _ he))
      (follow_induction returned_meet hcall entry.2)

/-- A buffer that is written by several calls is delivered once. -/
theorem Delivers.output_eq {u u' : Usage α} {buf : Bytes} (h : u.Delivers buf u') :
    u'.stream.output = u.stream.output ++ buf := by
  induction h with
  | @done u buf events hphase =>
    have hwrote := u.wrote_follow buf events
    simp only [Wrote, hphase] at hwrote
    exact hwrote.2
  | @resumed u u' buf events count hphase between hread hrest ih =>
    have hwrote := u.wrote_follow buf events
    simp only [Wrote, hphase] at hwrote
    have hbetween := (returned_serve hread ⟨⟨_, hphase⟩, rfl⟩).output_eq
    -- The front that the cancelled call wrote and what the others got are the buffer.
    rw [ih, hbetween, hwrote.2, List.append_assoc, List.take_append_drop]

end Writes

section Reads

/-- A paced read of `want` bytes has put the next `count` bytes of the stream to the front of its
buffer. -/
structure Fills (u : Usage α) (want count : Nat) (u' : Usage α) : Prop where
  count_le : count ≤ want
  length_eq : (u'.side .read).transfer.data.length = count
  next : ∃ bytes, u'.received = u.received ++ bytes ∧
    u.stream.inner.incoming.arrived ++ bytes =
      (u'.side .read).transfer.data ++ u'.stream.inner.incoming.arrived

/-- The last transfer of a read between two states was short. -/
def CutShort (u u' : Usage α) : Prop :=
  ∃ deeds, (u'.side .read).deeds = (u.side .read).deeds ++ deeds ∧ EndsShort deeds

/-- What a paced read of `want` bytes has come to, from one state to another. -/
def Took (u : Usage α) (want : Nat) (u' : Usage α) : Prop :=
  match (u'.side .read).transfer.phase with
  | .returns .done =>
    u.Fills want (u'.side .read).transfer.moved u' ∧
      ((u'.side .read).transfer.moved < want → u.CutShort u')
  | .returns (.failed (.cancelled count)) => u.Fills want count u'
  | _ => True

/-- The account of a paced read, on its own direction. -/
structure ReadsOn (u : Usage α) (want : Nat) (u' : Usage α) : Prop where
  sound : (u'.world .read).Sound
  reading : ∃ bytes deeds, u'.received = u.received ++ bytes ∧
    (u'.side .read).deeds = (u.side .read).deeds ++ deeds ∧
    World.Reading (u.stream.inner.incoming.arrived ++ bytes) want deeds (u'.world .read)

/-- Everything that may happen keeps the account of a paced read. -/
theorem readsOn_meet {u : Usage α} {want : Nat} (u' : Usage α) (e : Event α)
    (h : u.ReadsOn want u') : u.ReadsOn want (u'.meet e) := by
  refine ⟨u'.sound_meet e h.sound, ?_⟩
  obtain ⟨bytes, deeds, hreceived, hdeeds, hreading⟩ := h.reading
  obtain ⟨cancelled, rfl⟩ | ⟨hside, more, hmore, harrived⟩ := u'.meet_read_cases e
  · have hstep := (World.step_advance cancelled (u'.world .read)).reading h.sound hreading
    rw [← world_step_self] at hstep
    refine ⟨bytes, _, hreceived, ?_, hstep⟩
    change ((u'.step .read cancelled).side .read).deeds = _
    rw [side_step_self, ← List.append_assoc, ← hdeeds]
    rfl
  · -- The call did nothing, and there may be more that it has not got.
    refine ⟨bytes ++ more, deeds, ?_, by rw [hside, hdeeds], ?_⟩
    · rw [hmore, hreceived, List.append_assoc]
    · rw [← List.append_assoc]
      refine hreading.arrive ?_ harrived
      rw [world_eq, world_eq, hside]

omit [Quantity α] in
theorem readsOn_call (u : Usage α) (want : Nat) :
    u.ReadsOn want (u.call (.reads want)) := by
  have hside : (u.call (.reads want)).side .read = (u.side .read).begin (.reads want) :=
    side_call_self rfl
  refine ⟨u.sound_call_self rfl, [], [], (List.append_nil _).symm, ?_, ?_⟩
  · rw [hside]
    exact (List.append_nil _).symm
  · rw [world_eq, hside]
    exact
      { mode_eq := rfl
        data_append := (List.append_nil _).symm
        length_eq := rfl
        want_eq := Nat.zero_add _
        count_eq := fun _ hcount => by cases hcount
        short := fun hdone => by cases hdone }

/-- A paced read is exact, whatever happens between its steps. -/
theorem took_follow (u : Usage α) (want : Nat) (events : List (Event α)) :
    u.Took want ((u.call (.reads want)).follow events) := by
  obtain ⟨-, bytes, deeds, hreceived, hdeeds, hreading⟩ :=
    follow_induction readsOn_meet (u.readsOn_call want) events
  generalize (u.call (.reads want)).follow events = u' at *
  have hwant : (u'.side .read).transfer.moved + (u'.side .read).transfer.want = want :=
    hreading.want_eq
  have hfills : u.Fills want (u'.side .read).transfer.moved u' :=
    { count_le := by omega
      length_eq := hreading.length_eq
      next := ⟨bytes, hreceived, hreading.data_append.symm⟩ }
  unfold Took
  split
  next hphase =>
    refine ⟨hfills, fun hless => ⟨deeds, hdeeds, (hreading.short hphase).resolve_left ?_⟩⟩
    change (u'.side .read).transfer.want ≠ 0
    omega
  next count hphase =>
    rw [hreading.count_eq count hphase]
    exact hfills
  next => trivial

end Reads

/-- What paced transfers come to, of whatever size and whenever they are cancelled, whatever happens
between their steps. A write that is done has written its buffer, and one that was cancelled a front
of it of the length that it tells; calls that go on where the one before was cancelled write the
buffer once. A read has got as many of the next bytes as it tells, and it ends with fewer than it
wished for only behind a transfer that was short. -/
theorem transfers_exact (u : Usage α) (buf : Bytes) (want : Nat) (events : List (Event α)) :
    u.Wrote buf ((u.call (.writes buf)).follow events) ∧
      (∀ u', u.Delivers buf u' → u'.stream.output = u.stream.output ++ buf) ∧
      u.Took want ((u.call (.reads want)).follow events) :=
  ⟨u.wrote_follow buf events, fun _ h => h.output_eq, u.took_follow want events⟩

/-- A write of five bytes gets a grant of three, is cancelled while it waits for the next one, and
goes on with the request that it left when the scheduler is dropped. A byte is read in between. -/
theorem transfers_exact_resumed :
    let scheduler : Scheduler ℚ := { ruleSets := [{ budget := 10 }], nextTicket := 1 }
    let u : Usage ℚ := idle (.paced ⟨0⟩ (.named "peer")) { scheduler with nextTicket := 0 } []
    let step : Event ℚ := .step .write false
    let first : List (Event ℚ) :=
      [step, step, .schedule scheduler [(0, .grant (.bytes 3 0))], step, step, step, step, step,
        .step .write true, .arrive [6]]
    let between : List (Call × List (Event ℚ)) :=
      [({ mode := .readOnce, want := 1 }, [.step .read false, .step .read false])]
    let second : List (Event ℚ) :=
      [step, step, .schedule scheduler [(1, .lost)], step, step, step, step]
    let u' := ((((u.call (.writes [1, 2, 3, 4, 5])).follow first).serve between).call
      (.writes (List.drop 3 [1, 2, 3, 4, 5]))).follow second
    u.Delivers [1, 2, 3, 4, 5] u' ∧ u'.stream.output = [1, 2, 3, 4, 5] := by
  intro scheduler u step first between second u'
  have h : u.Delivers [1, 2, 3, 4, 5] u' :=
    .resumed first 3 (by decide) between (by decide) (.done second (by decide))
  exact ⟨h, (u.transfers_exact [1, 2, 3, 4, 5] 0 []).2.1 u' h⟩

end Usage

end HttpRelay.Throttle
