import HttpRelay.Proofs.Chunked.Driving
import HttpRelay.Proofs.Chunked.OpenInput

/-!
# Ways of reading a stream

A stream may have arrived to its end, or more of it may come, and it is read in any number of reads
of any sizes through any read-ahead. What the body is, and what is wrong with it, shows in the same
way: only a body that is cut short is waited for if more may come.

* `Reader.drive_close`: what a drive comes to once the input ends;
* `drive_cases`: what a drive comes to, in terms of the stream alone;
* `Schedule`: a way of reading a stream that comes to an end;
* `Schedule.outcome_eq_ok`, `Schedule.outcome_eq_failed`, `Schedule.payload_eq`: what is found.
-/

namespace HttpRelay.Chunked

/-- Once the input ends, a drive is the same, unless it waited for more of the body. -/
theorem Reader.drive_close (r : Reader) (ns : List Nat) :
    r.close.drive ns = r.drive ns ∨
      (r.drive ns).outcome = some (.error .starved) ∧
        (r.close.drive ns).outcome = some (.error (.failed .unexpectedEof)) := by
  induction ns generalizing r with
  | nil => exact .inl rfl
  | cons n ns ih =>
    -- a read that waits finds the end in its place, and any other one is the same
    rw [drive, drive, read, read]
    rcases hread : readFrom n [] r with ⟨halt | data, r₁⟩
    · by_cases hstarved : halt = .starved
      · subst hstarved
        obtain ⟨r₂, hclosed⟩ := readFrom_starved hread
        rw [hclosed]
        exact .inr ⟨rfl, rfl⟩
      · rw [readFrom_close hread (by simpa using hstarved)]
        exact .inl rfl
    · have hended : r₁.close.ended = r₁.ended := rfl
      rw [readFrom_close hread (by simp)]
      dsimp only
      rw [hended]
      split
      next => exact .inl rfl
      next =>
        rcases ih r₁ with hsame | hwaits
        · left
          rw [hsame]
        · exact .inr hwaits

section Driving

variable {stream : Bytes} {capacity : Buffered.Capacity} {ns : List Nat}

/-- What a drive comes to: the body was delivered, something is wrong with it, or there is not all
of it. Otherwise more reads are called for. -/
theorem drive_cases (closed : Bool) (hns : ∀ n ∈ ns, 0 < n) :
    let drive := (Reader.ofArrived stream closed capacity).drive ns
    (∃ rest, drive.outcome = some (.ok rest) ∧ (decode stream).result = .ok rest ∧
        drive.payload = (decode stream).data) ∨
      (∃ error, drive.outcome = some (.error (.failed error)) ∧
        (decode stream).result = .error error) ∨
      (drive.outcome = some (.error .starved) ∧ (decode stream).result = .error .unexpectedEof) ∨
      drive.outcome = none ∧ ns.length ≤ stream.length := by
  intro drive
  have hclosed := Reader.drive_holds (Reader.holds_ofArrived stream capacity) hns
  have hclose : (Reader.ofArrived stream closed capacity).close =
      Reader.ofArrived stream true capacity := rfl
  -- what is known of the stream that ended is known of the open one, unless it is waited for
  rcases Reader.drive_close (Reader.ofArrived stream closed capacity) ns with
    hsame | ⟨hwaits, hcut⟩
  · rw [hclose] at hsame
    rw [hsame] at hclosed
    rcases hclosed with hdelivered | ⟨error, houtcome, hresult, -⟩ | ⟨hnone, hlength⟩
    · exact .inl hdelivered
    · exact .inr (.inl ⟨error, houtcome, hresult⟩)
    · exact .inr (.inr (.inr ⟨hnone, hlength.trans (length_data_decode_le stream)⟩))
  · -- where it is waited for, the stream that ended is cut short
    rw [hclose] at hcut
    refine .inr (.inr (.inl ⟨hwaits, ?_⟩))
    rcases hclosed with ⟨rest, houtcome, -, -⟩ | ⟨error, houtcome, hresult, -⟩ | ⟨hnone, -⟩
    · cases hcut.symm.trans houtcome
    · cases hcut.symm.trans houtcome
      exact hresult
    · cases hcut.symm.trans hnone

/-- A drive that reaches the end of a body has read what the stream is. -/
theorem decode_of_drive {closed : Bool} {rest : Bytes} (hns : ∀ n ∈ ns, 0 < n)
    (h : ((Reader.ofArrived stream closed capacity).drive ns).outcome = some (.ok rest)) :
    decode stream =
      ⟨((Reader.ofArrived stream closed capacity).drive ns).payload, .ok rest⟩ := by
  rcases drive_cases closed hns with
    ⟨rest', houtcome, hresult, hpayload⟩ | ⟨error, houtcome, -⟩ | ⟨houtcome, -⟩ | ⟨hnone, -⟩
  · cases h.symm.trans houtcome
    rw [hpayload, ← hresult]
  · cases h.symm.trans houtcome
  · cases h.symm.trans houtcome
  · cases h.symm.trans hnone

end Driving

/-- A way of reading a stream. -/
structure Schedule (stream : Bytes) where
  /-- The stream has arrived to its end. -/
  closed : Bool
  /-- How far is read ahead. -/
  capacity : Buffered.Capacity
  /-- The sizes of the reads. -/
  sizes : List Nat
  sizes_pos : ∀ n ∈ sizes, 0 < n
  /-- There are reads enough for whatever the stream is. -/
  enough : stream.length < sizes.length

namespace Schedule

variable {stream : Bytes}

/-- A byte at a time, with the read-ahead that a connection gets. -/
def bytewise (stream : Bytes) (closed : Bool) : Schedule stream where
  closed := closed
  capacity := Buffered.defaultCapacity
  sizes := List.replicate (stream.length + 1) 1
  sizes_pos := by simp
  enough := by simp

instance : Inhabited (Schedule stream) := ⟨bytewise stream true⟩

/-- What the reads give out. -/
def drive (schedule : Schedule stream) : Reader.Drive :=
  (Reader.ofArrived stream schedule.closed schedule.capacity).drive schedule.sizes

variable (schedule : Schedule stream)

/-- There are reads enough to come to an end, or to where the body is waited for. -/
theorem drive_cases :
    (∃ rest, schedule.drive.outcome = some (.ok rest) ∧ (decode stream).result = .ok rest ∧
        schedule.drive.payload = (decode stream).data) ∨
      (∃ error, schedule.drive.outcome = some (.error (.failed error)) ∧
        (decode stream).result = .error error) ∨
      schedule.drive.outcome = some (.error .starved) ∧
        (decode stream).result = .error .unexpectedEof := by
  rcases Chunked.drive_cases schedule.closed schedule.sizes_pos with
    hdelivered | hwrong | hwaits | ⟨-, hlength⟩
  · exact .inl hdelivered
  · exact .inr (.inl hwrong)
  · exact .inr (.inr hwaits)
  · exact absurd schedule.enough (Nat.not_lt.mpr hlength)

/-- The end of the body is found in any way of reading. -/
theorem outcome_eq_ok {rest : Bytes} :
    schedule.drive.outcome = some (.ok rest) ↔ (decode stream).result = .ok rest := by
  rcases schedule.drive_cases with ⟨rest', houtcome, hresult, -⟩ | ⟨error, houtcome, hresult⟩ |
    ⟨houtcome, hresult⟩ <;> simp [houtcome, hresult]

/-- What is wrong with the body is found in any way of reading, unless it is cut short. -/
theorem outcome_eq_failed {error : Error} (h : error ≠ .unexpectedEof) :
    schedule.drive.outcome = some (.error (.failed error)) ↔
      (decode stream).result = .error error := by
  rcases schedule.drive_cases with ⟨rest, houtcome, hresult, -⟩ | ⟨error', houtcome, hresult⟩ |
    ⟨houtcome, hresult⟩
  · simp [houtcome, hresult]
  · simp [houtcome, hresult]
  · simp [houtcome, hresult, h.symm]

/-- All data of the body is delivered in any way of reading. -/
theorem payload_eq {rest : Bytes} (h : (decode stream).result = .ok rest) :
    schedule.drive.payload = (decode stream).data := by
  rcases schedule.drive_cases with ⟨rest', -, -, hpayload⟩ | ⟨error, -, hresult⟩ | ⟨-, hresult⟩
  · exact hpayload
  · cases h.symm.trans hresult
  · cases h.symm.trans hresult

end Schedule

end HttpRelay.Chunked
