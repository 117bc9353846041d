import HttpRelay.Chunked.Copy
import HttpRelay.Proofs.Outcome
import HttpRelay.Proofs.Transport.Buffered

/-!
# What a chunked reader takes off its input

Whatever a reader decodes, it takes bytes off the front of its input, and leaves the others there
in their order.

* `Reader.Consumes`: reads that leave the end of what was pending;
* `Consumes.bind`, `Consumes.of_get`, `Consumes.tryCatch`: how such reads are put together;
* `Reader.readFrom_suffix`, `Copy.pass_suffix`: the reads and the copies of a body are of this
  kind.
-/

namespace HttpRelay.Chunked

open Outcome

namespace Reader

variable {α β : Type} {r r' : Reader}

/-- A read that, when it gives a value, leaves the end of what was pending. -/
def Consumes (read : Read α) : Prop :=
  ∀ (r : Reader) (a : α) (r' : Reader), read.run.run r = (.ok a, r') →
    r'.input.pending <:+ r.input.pending

theorem consumes_pure (a : α) : Consumes (pure a : Read α) := by
  intro r a' r' hrun
  obtain rfl := (Prod.mk.inj hrun).2
  exact List.suffix_rfl

theorem consumes_throw (halt : Halt Error) : Consumes (throw halt : Read α) := by
  intro r a r' hrun
  cases (Prod.mk.inj hrun).1

theorem consumes_modify {f : Reader → Reader} (h : ∀ r, (f r).input = r.input) :
    Consumes (modify f : Read Unit) := by
  intro r a r' hrun
  obtain rfl := (Prod.mk.inj hrun).2
  exact ⟨[], by rw [h, List.nil_append]⟩

theorem Consumes.bind {read : Read α} {next : α → Read β} (hread : Consumes read)
    (hnext : ∀ a, Consumes (next a)) : Consumes (read >>= next) := by
  intro r b r' hrun
  rcases hfirst : read.run.run r with ⟨halt | a, middle⟩
  · rw [run_bind_error hfirst] at hrun
    cases (Prod.mk.inj hrun).1
  · rw [run_bind_ok hfirst] at hrun
    exact (hnext a _ _ _ hrun).trans (hread _ _ _ hfirst)

theorem Consumes.of_get {next : Reader → Read α} (hnext : ∀ r, Consumes (next r)) :
    Consumes (get >>= next) := by
  intro r a r' hrun
  rw [run_bind_ok (run_get r)] at hrun
  exact hnext r _ _ _ hrun

/-- A rescue that gives no value takes nothing. -/
theorem Consumes.tryCatch {read : Read α} {rescue : Halt Error → Read α} (hread : Consumes read)
    (hrescue : ∀ halt r, ∃ halt' r', (rescue halt).run.run r = (.error halt', r')) :
    Consumes (tryCatch read rescue) := by
  intro r a r' hrun
  rcases hfirst : read.run.run r with ⟨halt | a', middle⟩
  · obtain ⟨halt', r'', hthrow⟩ := hrescue halt middle
    rw [run_tryCatch_error hfirst, hthrow] at hrun
    cases (Prod.mk.inj hrun).1
  · rw [run_tryCatch_ok hfirst] at hrun
    obtain ⟨-, rfl⟩ := Prod.mk.inj hrun
    exact hread _ _ _ hfirst

theorem consumes_lift {read : Buffered → Except (Halt IoFailure) α × Buffered}
    (h : ∀ b a b', read b = (.ok a, b') → b'.pending <:+ b.pending) : Consumes (lift read) := by
  intro r a r' hrun
  rcases hread : read r.input with ⟨answer, input⟩
  simp only [lift, ExceptT.run_mk, StateT.run, hread] at hrun
  obtain ⟨hanswer, rfl⟩ := Prod.mk.inj hrun
  cases answer with
  | error halt => cases hanswer
  | ok a' => exact h _ _ _ hread

theorem consumes_line : Consumes line := by
  have hread : Consumes (lift (·.readLine lineReadLimit)) :=
    consumes_lift fun b text b' hrun => ⟨text, (Buffered.readLine_ok hrun).symm⟩
  refine hread.bind fun text => ?_
  split
  · exact consumes_pure _
  · split <;> exact consumes_throw _

theorem consumes_sizeLine : Consumes sizeLine := by
  refine Consumes.bind (Consumes.tryCatch consumes_line fun halt r => ?_) fun text => ?_
  · split <;> exact ⟨_, _, rfl⟩
  · split
    · exact consumes_pure _
    · exact consumes_throw _

theorem consumes_trailersWithin (budget : Nat) : Consumes (trailersWithin budget) := by
  induction budget with
  | zero => exact consumes_throw _
  | succ budget ih =>
    refine consumes_line.bind fun text => ?_
    split
    · exact consumes_pure _
    · exact ih

theorem consumes_openChunk : Consumes openChunk := by
  refine Consumes.of_get fun r => ?_
  split
  · refine consumes_sizeLine.bind fun size => ?_
    split
    · exact (consumes_trailersWithin _).bind fun _ => consumes_modify fun _ => rfl
    · exact consumes_modify fun _ => rfl
  · exact consumes_pure _

theorem consumes_closeChunk : Consumes closeChunk := by
  refine Consumes.of_get fun r => ?_
  split
  · refine consumes_line.bind fun text => ?_
    split
    · exact consumes_pure _
    · exact consumes_throw _
  · exact consumes_pure _

theorem consumes_chunkData (want : Nat) : Consumes (chunkData want) := by
  refine Consumes.of_get fun r => ?_
  have hread : Consumes (lift (·.readSome (min want r.remaining))) :=
    consumes_lift fun b data b' hrun => ⟨data, (Buffered.readSome_ok hrun).1.symm⟩
  refine hread.bind fun data => ?_
  -- what is behind the test that the input has ended takes the line end of a finished chunk only
  have hrest : Consumes (do
      modify fun r => { r with remaining := r.remaining - data.length }
      closeChunk
      return data : Read Bytes) :=
    Consumes.bind (consumes_modify fun _ => rfl) fun _ =>
      consumes_closeChunk.bind fun _ => consumes_pure data
  split
  · exact (consumes_throw _).bind fun _ => hrest
  · exact hrest

/-- What a reader delivers, it has taken off the front of what was pending. -/
theorem readFrom_suffix {want : Nat} {reversed data : Bytes}
    (h : readFrom want reversed r = (.ok data, r')) : r'.input.pending <:+ r.input.pending := by
  -- by recursion on what is wanted: a round opens a chunk, takes a piece of it and goes on
  induction hwant : want using Nat.strongRecOn generalizing want reversed r with
  | ind wanted ih =>
    subst hwant
    rw [readFrom] at h
    split at h
    next =>
      obtain ⟨-, rfl⟩ := Prod.mk.inj h
      exact List.suffix_rfl
    next =>
      rcases hopen : openChunk.run.run r with ⟨halt | ⟨⟩, r₁⟩
      · rw [hopen] at h
        cases (Prod.mk.inj h).1
      · rw [hopen] at h
        have hopened := consumes_openChunk _ _ _ hopen
        dsimp only at h
        split at h
        next =>
          obtain ⟨-, rfl⟩ := Prod.mk.inj h
          exact hopened
        next =>
          rcases hchunk : (chunkData want).run.run r₁ with ⟨halt | piece, r₂⟩
          · rw [hchunk] at h
            cases (Prod.mk.inj h).1
          · rw [hchunk] at h
            have htaken := (consumes_chunkData want _ _ _ hchunk).trans hopened
            dsimp only at h
            split at h
            next =>
              obtain ⟨-, rfl⟩ := Prod.mk.inj h
              exact htaken
            next hshorter => exact (ih _ (by omega) h rfl).trans htaken

end Reader

namespace Copy

/-- A pass of a copy that does not halt takes bytes off the front of its input. -/
theorem pass_suffix {copy : Copy} {complete : Bool} (h : copy.pass.status = .ok complete) :
    copy.pass.next.reader.input.pending <:+ copy.reader.input.pending := by
  rcases hread : copy.reader.read copyLength with ⟨halt | data, reader⟩
  · rw [pass, hread] at h
    cases h
  · have hsuffix := Reader.readFrom_suffix hread
    rw [pass, hread]
    dsimp only
    split
    · exact hsuffix
    · split
      · split <;> exact hsuffix
      · exact hsuffix

end Copy

end HttpRelay.Chunked
