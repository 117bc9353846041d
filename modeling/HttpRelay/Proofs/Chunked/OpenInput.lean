import HttpRelay.Chunked.Copy
import HttpRelay.Proofs.Outcome
import HttpRelay.Proofs.Transport.Buffered

/-!
# Reading a chunked body while its input is open

A reader sees whether more input may come only where it waits for it. So what holds of input that
has arrived to its end holds of open input as well, as long as no read starves. A read that starves
breaks off once the input ends where it is.

* `Reader.Decided`: reads that tell open input from ended input by waiting only;
* `Decided.bind`, `Decided.of_get`, `Decided.tryCatch`: how such reads are put together;
* `Reader.readFrom_close`: the reads of a reader are of this kind;
* `Reader.BreaksOff`: reads that find the end of the input where they waited for more;
* `Reader.readFrom_starved`: the reads of a reader are of this kind as well.
-/

namespace HttpRelay.Chunked

open Outcome

namespace Reader

variable {α β : Type} {r r' : Reader}

/-- The same reader when its input ends where it is. -/
def close (r : Reader) : Reader := { r with input := r.input.close }

/-- A read that, unless it starves, is the same when the input ends. -/
def Decided (read : Read α) : Prop :=
  ∀ (r : Reader) (answer : Except (Halt Error) α) (r' : Reader), read.run.run r = (answer, r') →
    answer ≠ .error .starved → read.run.run r.close = (answer, r'.close)

theorem decided_pure (a : α) : Decided (pure a : Read α) := by
  intro r answer r' hrun _
  obtain ⟨rfl, rfl⟩ := Prod.mk.inj hrun
  rfl

theorem decided_throw (halt : Halt Error) : Decided (throw halt : Read α) := by
  intro r answer r' hrun _
  obtain ⟨rfl, rfl⟩ := Prod.mk.inj hrun
  rfl

theorem decided_modify {f : Reader → Reader} (h : ∀ r, f r.close = (f r).close) :
    Decided (modify f : Read Unit) := by
  intro r answer r' hrun _
  obtain ⟨rfl, rfl⟩ := Prod.mk.inj hrun
  exact congrArg (Prod.mk _) (h r)

theorem Decided.bind {read : Read α} {next : α → Read β} (hread : Decided read)
    (hnext : ∀ a, Decided (next a)) : Decided (read >>= next) := by
  intro r answer r' hrun hanswer
  rcases hfirst : read.run.run r with ⟨halt | a, middle⟩
  · rw [run_bind_error hfirst] at hrun
    obtain ⟨rfl, rfl⟩ := Prod.mk.inj hrun
    exact run_bind_error (hread r _ _ hfirst (error_ne_starved hanswer))
  · rw [run_bind_ok hfirst] at hrun
    rw [run_bind_ok (hread r _ _ hfirst (by simp))]
    exact hnext a middle answer r' hrun hanswer

/-- What is done with the reader must not depend on whether its input is open. -/
theorem Decided.of_get {next : Reader → Read α} (hnext : ∀ r, Decided (next r))
    (hsame : ∀ r, next r.close = next r) : Decided (get >>= next) := by
  intro r answer r' hrun hanswer
  rw [run_bind_ok (run_get r)] at hrun
  rw [run_bind_ok (run_get r.close), hsame]
  exact hnext r r answer r' hrun hanswer

/-- A rescue must not hide that the read starved. -/
theorem Decided.tryCatch {read : Read α} {rescue : Halt Error → Read α} (hread : Decided read)
    (hrescue : ∀ halt, Decided (rescue halt)) (hstarved : rescue .starved = throw .starved) :
    Decided (tryCatch read rescue) := by
  intro r answer r' hrun hanswer
  rcases hfirst : read.run.run r with ⟨halt | a, middle⟩
  · rw [run_tryCatch_error hfirst] at hrun
    have hhalt : (.error halt : Except (Halt Error) α) ≠ .error .starved := by
      -- otherwise the rescue would have starved as well
      rintro ⟨rfl⟩
      rw [hstarved] at hrun
      exact hanswer (Prod.mk.inj hrun).1.symm
    rw [run_tryCatch_error (hread r _ _ hfirst hhalt)]
    exact hrescue halt middle answer r' hrun hanswer
  · rw [run_tryCatch_ok hfirst] at hrun
    obtain ⟨rfl, rfl⟩ := Prod.mk.inj hrun
    exact run_tryCatch_ok (hread r _ _ hfirst (by simp))

theorem decided_lift {read : Buffered → Except (Halt IoFailure) α × Buffered}
    (h : ∀ b answer b', read b = (answer, b') → answer ≠ .error .starved →
      read b.close = (answer, b'.close)) : Decided (lift read) := by
  intro r answer r' hrun hanswer
  rcases hread : read r.input with ⟨answer', input⟩
  simp only [lift, ExceptT.run_mk, StateT.run, hread] at hrun
  obtain ⟨rfl, rfl⟩ := Prod.mk.inj hrun
  have hclose : read r.close.input = (answer', input.close) := by
    refine h r.input answer' input hread ?_
    rintro rfl
    exact hanswer rfl
  simp only [lift, ExceptT.run_mk, StateT.run, hclose]
  rfl

theorem decided_line : Decided line := by
  have hread : Decided (lift (·.readLine lineReadLimit)) :=
    decided_lift fun b answer b' hrun hanswer => Buffered.readLineFrom_close hrun hanswer
  refine hread.bind fun text => ?_
  split
  · exact decided_pure _
  · split <;> exact decided_throw _

theorem decided_sizeLine : Decided sizeLine := by
  refine Decided.bind (Decided.tryCatch decided_line (fun halt => ?_) rfl) fun text => ?_
  · split <;> exact decided_throw _
  · split
    · exact decided_pure _
    · exact decided_throw _

theorem decided_trailersWithin (budget : Nat) : Decided (trailersWithin budget) := by
  induction budget with
  | zero => exact decided_throw _
  | succ budget ih =>
    refine decided_line.bind fun text => ?_
    split
    · exact decided_pure _
    · exact ih

theorem decided_openChunk : Decided openChunk := by
  refine Decided.of_get (fun r => ?_) fun r => rfl
  split
  · refine decided_sizeLine.bind fun size => ?_
    split
    · exact (decided_trailersWithin _).bind fun _ => decided_modify fun r => rfl
    · exact decided_modify fun r => rfl
  · exact decided_pure _

theorem decided_closeChunk : Decided closeChunk := by
  refine Decided.of_get (fun r => ?_) fun r => rfl
  split
  · refine decided_line.bind fun text => ?_
    split
    · exact decided_pure _
    · exact decided_throw _
  · exact decided_pure _

theorem decided_chunkData (want : Nat) : Decided (chunkData want) := by
  refine Decided.of_get (fun r => ?_) fun r => rfl
  have hread : Decided (lift (·.readSome (min want r.remaining))) :=
    decided_lift fun b answer b' hrun hanswer => Buffered.readSome_close hrun hanswer
  refine hread.bind fun data => ?_
  -- what follows a read of some data does not read the input but for the end of the chunk
  have hrest : Decided (do
      modify fun r => { r with remaining := r.remaining - data.length }
      closeChunk
      return data : Read Bytes) := by
    refine Decided.bind (decided_modify ?_) fun _ =>
      decided_closeChunk.bind fun _ => decided_pure data
    exact fun r => rfl
  split
  · exact (decided_throw _).bind fun _ => hrest
  · exact hrest

theorem readFrom_close {want : Nat} {reversed : Bytes} {answer : Except (Halt Error) Bytes}
    (h : readFrom want reversed r = (answer, r')) (hanswer : answer ≠ .error .starved) :
    readFrom want reversed r.close = (answer, r'.close) := by
  -- Round by round both readers do the same, until nothing more is wanted.
  induction hwant : want using Nat.strongRecOn generalizing want reversed r with
  | ind wanted ih =>
    subst hwant
    have hended (r : Reader) : r.close.ended = r.ended := rfl
    rw [readFrom] at h ⊢
    rw [hended]
    split
    next hdone =>
      rw [if_pos hdone] at h
      obtain ⟨rfl, rfl⟩ := Prod.mk.inj h
      rfl
    next hdone =>
      rw [if_neg hdone] at h
      rcases hopen : openChunk.run.run r with ⟨halt | ⟨⟩, r₁⟩
      · rw [hopen] at h
        obtain ⟨rfl, rfl⟩ := Prod.mk.inj h
        rw [decided_openChunk r _ _ hopen (error_ne_starved hanswer)]
      · rw [hopen] at h
        rw [decided_openChunk r _ _ hopen (by simp)]
        dsimp only at h ⊢
        rw [hended]
        split
        next hlast =>
          rw [if_pos hlast] at h
          obtain ⟨rfl, rfl⟩ := Prod.mk.inj h
          rfl
        next hlast =>
          rw [if_neg hlast] at h
          rcases hdata : (chunkData want).run.run r₁ with ⟨halt | data, r₂⟩
          · rw [hdata] at h
            obtain ⟨rfl, rfl⟩ := Prod.mk.inj h
            rw [decided_chunkData want r₁ _ _ hdata hanswer]
          · rw [hdata] at h
            rw [decided_chunkData want r₁ _ _ hdata (by simp)]
            dsimp only at h ⊢
            split
            next hsame =>
              rw [dif_pos hsame] at h
              obtain ⟨rfl, rfl⟩ := Prod.mk.inj h
              rfl
            next hshorter =>
              rw [dif_neg hshorter] at h
              exact ih _ (by omega) h rfl

/-! ### Where reads wait -/

/-- A read that finds the body cut short, if the input ends where the read waited for more. -/
def BreaksOff (read : Read α) : Prop :=
  ∀ r r' : Reader, read.run.run r = (.error .starved, r') →
    ∃ r'', read.run.run r.close = (.error (.failed .unexpectedEof), r'')

/-- A read that waits gives no value once the input ends, so there is a value in both cases or in
none. -/
theorem exists_ok_close_iff {read : Read α} (hdecided : Decided read) (hbreaks : BreaksOff read)
    (r : Reader) :
    (∃ a r', read.run.run r.close = (.ok a, r')) ↔ ∃ a r', read.run.run r = (.ok a, r') := by
  rcases hrun : read.run.run r with ⟨answer, r'⟩
  by_cases hstarved : answer = .error .starved
  · subst hstarved
    obtain ⟨r'', hclosed⟩ := hbreaks r r' hrun
    rw [hclosed]
    constructor <;> rintro ⟨a, r₁, hvalue⟩ <;> cases (Prod.mk.inj hvalue).1
  · rw [hdecided r answer r' hrun hstarved]
    constructor
    · rintro ⟨a, r₁, hvalue⟩
      exact ⟨a, r', congrArg (·, r') (Prod.mk.inj hvalue).1⟩
    · rintro ⟨a, r₁, hvalue⟩
      exact ⟨a, r'.close, congrArg (·, r'.close) (Prod.mk.inj hvalue).1⟩

theorem breaksOff_pure (a : α) : BreaksOff (pure a : Read α) := by
  intro r r' hrun
  cases (Prod.mk.inj hrun).1

theorem breaksOff_fail (error : Error) : BreaksOff (fail error : Read α) := by
  intro r r' hrun
  cases (Prod.mk.inj hrun).1

theorem breaksOff_modify (f : Reader → Reader) : BreaksOff (modify f : Read Unit) := by
  intro r r' hrun
  cases (Prod.mk.inj hrun).1

theorem BreaksOff.bind {read : Read α} {next : α → Read β} (hread : BreaksOff read)
    (hdecided : Decided read) (hnext : ∀ a, BreaksOff (next a)) : BreaksOff (read >>= next) := by
  intro r r' hrun
  rcases hfirst : read.run.run r with ⟨halt | a, middle⟩
  · -- the first of the two waits, and breaks off
    rw [run_bind_error hfirst] at hrun
    obtain rfl := Except.error.inj (Prod.mk.inj hrun).1
    obtain ⟨r'', hclosed⟩ := hread r middle hfirst
    exact ⟨r'', run_bind_error hclosed⟩
  · rw [run_bind_ok hfirst] at hrun
    rw [run_bind_ok (hdecided r _ _ hfirst (by simp))]
    exact hnext a middle r' hrun

theorem BreaksOff.of_get {next : Reader → Read α} (hnext : ∀ r, BreaksOff (next r))
    (hsame : ∀ r, next r.close = next r) : BreaksOff (get >>= next) := by
  intro r r' hrun
  rw [run_bind_ok (run_get r)] at hrun
  rw [run_bind_ok (run_get r.close), hsame]
  exact hnext r r r' hrun

/-- A rescue must not hide that the body is cut short. -/
theorem BreaksOff.tryCatch {read : Read α} {rescue : Halt Error → Read α}
    (hread : BreaksOff read) (hdecided : Decided read)
    (hrescue : ∀ halt, halt ≠ .starved → BreaksOff (rescue halt))
    (hcut : rescue (.failed .unexpectedEof) = throw (.failed .unexpectedEof)) :
    BreaksOff (tryCatch read rescue) := by
  intro r r' hrun
  rcases hfirst : read.run.run r with ⟨halt | a, middle⟩
  · by_cases hstarved : halt = .starved
    · subst hstarved
      obtain ⟨r'', hclosed⟩ := hread r middle hfirst
      refine ⟨r'', ?_⟩
      rw [run_tryCatch_error hclosed, hcut, run_throw]
    · rw [run_tryCatch_error hfirst] at hrun
      rw [run_tryCatch_error (hdecided r _ _ hfirst (by simpa using hstarved))]
      exact hrescue halt hstarved middle r' hrun
  · rw [run_tryCatch_ok hfirst] at hrun
    cases (Prod.mk.inj hrun).1

/-- A read of the input below waits where the input does. -/
theorem lift_starved {read : Buffered → Except (Halt IoFailure) α × Buffered}
    (h : (lift read).run.run r = (.error .starved, r')) :
    ∃ input, read r.input = (.error .starved, input) := by
  rcases hread : read r.input with ⟨(_ | failure) | a, input⟩
  · exact ⟨input, rfl⟩
  · simp only [lift, ExceptT.run_mk, StateT.run, hread] at h
    cases (Prod.mk.inj h).1
  · simp only [lift, ExceptT.run_mk, StateT.run, hread] at h
    cases (Prod.mk.inj h).1

theorem breaksOff_line : BreaksOff line := by
  intro r r' hrun
  rcases hread : (lift (·.readLine lineReadLimit)).run.run r with ⟨halt | text, middle⟩
  · rw [line, run_bind_error hread] at hrun
    obtain rfl := Except.error.inj (Prod.mk.inj hrun).1
    obtain ⟨input, hinput⟩ := lift_starved hread
    -- once the input ends, what there is of the line has no line feed and is not too long
    obtain ⟨part, input', hclosed, hnone, hlength⟩ := Buffered.readLineFrom_starved hinput
    have hlift : (lift (·.readLine lineReadLimit)).run.run r.close =
        (.ok part, { r.close with input := input' }) := by
      simp only [lift, ExceptT.run_mk, StateT.run, Buffered.readLine, close, hclosed]
      rfl
    have hlast : part.getLast? ≠ some Bytes.lf := fun hlast => hnone (List.mem_of_getLast? hlast)
    refine ⟨{ r.close with input := input' }, ?_⟩
    rw [line, run_bind_ok hlift, if_neg hlast, if_neg (Nat.not_le.mpr hlength)]
    rfl
  · rw [line, run_bind_ok hread] at hrun
    split at hrun
    · cases (Prod.mk.inj hrun).1
    · split at hrun <;> cases (Prod.mk.inj hrun).1

theorem breaksOff_sizeLine : BreaksOff sizeLine := by
  refine BreaksOff.bind (breaksOff_line.tryCatch decided_line (fun halt hhalt => ?_) rfl)
    (decided_line.tryCatch (fun halt => ?_) rfl) fun text => ?_
  · split
    · exact breaksOff_fail _
    · -- a halt that is passed on is not for want of bytes
      intro r r' hrun
      exact absurd (Except.error.inj (Prod.mk.inj hrun).1) hhalt
  · split <;> exact decided_throw _
  · split
    · exact breaksOff_pure _
    · exact breaksOff_fail _

theorem breaksOff_trailersWithin (budget : Nat) : BreaksOff (trailersWithin budget) := by
  induction budget with
  | zero => exact breaksOff_fail _
  | succ budget ih =>
    refine breaksOff_line.bind decided_line fun text => ?_
    split
    · exact breaksOff_pure _
    · exact ih

theorem breaksOff_openChunk : BreaksOff openChunk := by
  refine BreaksOff.of_get (fun r => ?_) fun r => rfl
  split
  · refine breaksOff_sizeLine.bind decided_sizeLine fun size => ?_
    split
    · exact (breaksOff_trailersWithin _).bind (decided_trailersWithin _)
        fun _ => breaksOff_modify _
    · exact breaksOff_modify _
  · exact breaksOff_pure _

theorem breaksOff_closeChunk : BreaksOff closeChunk := by
  refine BreaksOff.of_get (fun r => ?_) fun r => rfl
  split
  · refine breaksOff_line.bind decided_line fun text => ?_
    split
    · exact breaksOff_pure _
    · exact breaksOff_fail _
  · exact breaksOff_pure _

theorem breaksOff_chunkData (want : Nat) : BreaksOff (chunkData want) := by
  refine BreaksOff.of_get (fun r => ?_) fun r => rfl
  have hread : Decided (lift (·.readSome (min want r.remaining))) :=
    decided_lift fun b answer b' hrun hanswer => Buffered.readSome_close hrun hanswer
  have hrest (data : Bytes) : BreaksOff (do
      modify fun r => { r with remaining := r.remaining - data.length }
      closeChunk
      return data : Read Bytes) := by
    refine (breaksOff_modify _).bind (decided_modify ?_) fun _ =>
      breaksOff_closeChunk.bind decided_closeChunk fun _ => breaksOff_pure data
    exact fun r => rfl
  intro r₀ r' hrun
  rcases hfirst : (lift (·.readSome (min want r.remaining))).run.run r₀ with ⟨halt | data, middle⟩
  · rw [run_bind_error hfirst] at hrun
    obtain rfl := Except.error.inj (Prod.mk.inj hrun).1
    obtain ⟨input, hinput⟩ := lift_starved hfirst
    -- at the end of the input no data comes, and the chunk is not complete
    obtain ⟨input', hclosed⟩ := Buffered.readSome_starved hinput
    have hlift : (lift (·.readSome (min want r.remaining))).run.run r₀.close =
        (.ok [], { r₀.close with input := input' }) := by
      simp only [lift, ExceptT.run_mk, StateT.run, close, hclosed]
      rfl
    refine ⟨{ r₀.close with input := input' }, ?_⟩
    rw [run_bind_ok hlift]
    rfl
  · rw [run_bind_ok hfirst] at hrun
    rw [run_bind_ok (hread r₀ _ _ hfirst (by simp))]
    split at hrun
    next hempty =>
      rw [if_pos hempty]
      exact ((breaksOff_fail _).bind (decided_throw _) fun _ => hrest data) middle r' hrun
    next hsome =>
      rw [if_neg hsome]
      exact hrest data middle r' hrun

theorem readFrom_starved {want : Nat} {reversed : Bytes}
    (h : readFrom want reversed r = (.error .starved, r')) :
    ∃ r'', readFrom want reversed r.close = (.error (.failed .unexpectedEof), r'') := by
  -- Both readers do the same up to the round that waits.
  induction hwant : want using Nat.strongRecOn generalizing want reversed r with
  | ind wanted ih =>
    subst hwant
    have hended (r : Reader) : r.close.ended = r.ended := rfl
    rw [readFrom] at h ⊢
    rw [hended]
    split
    next hdone =>
      rw [if_pos hdone] at h
      cases (Prod.mk.inj h).1
    next hdone =>
      rw [if_neg hdone] at h
      rcases hopen : openChunk.run.run r with ⟨halt | ⟨⟩, r₁⟩
      · rw [hopen] at h
        obtain rfl := Except.error.inj (Prod.mk.inj h).1
        obtain ⟨r'', hclosed⟩ := breaksOff_openChunk r r₁ hopen
        exact ⟨r'', by rw [hclosed]⟩
      · rw [hopen] at h
        rw [decided_openChunk r _ _ hopen (by simp)]
        dsimp only at h ⊢
        rw [hended]
        split
        next hlast =>
          rw [if_pos hlast] at h
          cases (Prod.mk.inj h).1
        next hlast =>
          rw [if_neg hlast] at h
          rcases hdata : (chunkData want).run.run r₁ with ⟨halt | data, r₂⟩
          · rw [hdata] at h
            obtain rfl := Except.error.inj (Prod.mk.inj h).1
            obtain ⟨r'', hclosed⟩ := breaksOff_chunkData want r₁ r₂ hdata
            exact ⟨r'', by rw [hclosed]⟩
          · rw [hdata] at h
            rw [decided_chunkData want r₁ _ _ hdata (by simp)]
            dsimp only at h ⊢
            split
            next hsame =>
              rw [dif_pos hsame] at h
              cases (Prod.mk.inj h).1
            next hshorter =>
              rw [dif_neg hshorter] at h
              exact ih _ (by omega) h rfl

end Reader

end HttpRelay.Chunked
