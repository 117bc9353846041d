import HttpRelay.Proofs.Chunked.ReaderSteps
import HttpRelay.Proofs.Chunked.WriterCalls

/-!
# Chunked round trip

However a body is split into writes, and however it is split into reads, a chunked reader delivers
what a chunked writer was given, and stops right behind it.

* `Reader.Serves`: the reader is inside a body that is well formed;
* `Reader.readFrom_serves`: what one read delivers, by induction on the bytes it still wants;
* `Reader.reads_delivers`: what a sequence of reads delivers;
* `roundTrip`: both ends together, for every capacity of the read-ahead.
-/

namespace HttpRelay.Chunked

/-- A body in portions of given sizes, the last ones short or empty when it runs out. -/
def portions (body : Bytes) : List Nat → List Bytes
  | [] => []
  | n :: ns => body.take n :: portions (body.drop n) ns

/-- How many bytes some reads ask for. -/
def asked : List Nat → Nat
  | [] => 0
  | n :: ns => n + asked ns

theorem flatten_portions (body : Bytes) (ns : List Nat) :
    (portions body ns).flatten = body.take (asked ns) := by
  induction ns generalizing body with
  | nil => simp [portions, asked]
  | cons n ns ih => rw [portions, List.flatten_cons, ih, asked, List.take_add]

namespace Reader

variable {r : Reader}

/-- A reader at the start of a body that arrived. -/
def ofArrived (arrived : Bytes) (closed : Bool) (capacity : Buffered.Capacity) : Reader :=
  { input := .ofFeed { arrived, closed } capacity }

/-- The results of reads of given sizes made one after another. -/
def reads (r : Reader) : List Nat → List (Except (Halt Error) Bytes) × Reader
  | [] => ([], r)
  | n :: ns =>
    let (result, r) := r.read n
    let (results, r) := r.reads ns
    (result :: results, r)

/-- A reader inside a chunk that still has `current`, before some whole chunks and the close. -/
structure Serves (r : Reader) (current : Bytes) (chunks : List Bytes) (trailing : Bytes) :
    Prop where
  ready : r.Ready current.length
    (unread current ++ (chunks.flatMap chunk ++ (terminator ++ trailing)))
  chunks : ∀ data ∈ chunks, data ≠ [] ∧ data.length < UInt64.size

/-- A reader that will deliver `body`, and then stop before `trailing`. -/
def Delivers (r : Reader) (body trailing : Bytes) : Prop :=
  (r.ended = true ∧ body = [] ∧ r.input.pending = trailing) ∨
    ∃ current chunks, r.Serves current chunks trailing ∧ body = current ++ chunks.flatten

/-- A reader inside a body has the next bytes of it in its chunk, once the chunk is open, or ends
it. -/
theorem openChunk_serves {current : Bytes} {chunks : List Bytes} {trailing : Bytes}
    (h : r.Serves current chunks trailing) :
    ∃ r', openChunk.run.run r = (.ok (), r') ∧
      ((current ++ chunks.flatten = [] ∧ r'.ended = true ∧ r'.input.pending = trailing) ∨
        ∃ (data : Bytes) (rest : List Bytes), data ≠ [] ∧
          data ++ rest.flatten = current ++ chunks.flatten ∧
          (∀ c ∈ rest, c ≠ [] ∧ c.length < UInt64.size) ∧
          r'.Ready data.length
            (data ++ Bytes.crlf ++ (rest.flatMap chunk ++ (terminator ++ trailing)))) := by
  by_cases hcurrent : current = []
  -- At a boundary, what comes next is a chunk or the close.
  · subst hcurrent
    have hready := h.ready
    rw [unread, if_pos rfl, List.nil_append] at hready
    cases chunks with
    | nil =>
      obtain ⟨r', hrun, hended, hpending⟩ := openChunk_end hready
      exact ⟨r', hrun, .inl ⟨rfl, hended, hpending⟩⟩
    | cons data rest =>
      obtain ⟨hdata, hsize⟩ := h.chunks data List.mem_cons_self
      rw [List.flatMap_cons, List.append_assoc] at hready
      obtain ⟨r', hrun, hready'⟩ := openChunk_run hdata hsize hready
      refine ⟨r', hrun, .inr ⟨data, rest, hdata, rfl, ?_, hready'⟩⟩
      exact fun c hc => h.chunks c (List.mem_cons_of_mem _ hc)
  · have hready := h.ready
    rw [unread, if_neg hcurrent] at hready
    refine ⟨r, openChunk_skip (List.length_pos_iff.mpr hcurrent) hready, .inr ?_⟩
    exact ⟨current, chunks, hcurrent, rfl, h.chunks, hready⟩

/-- What one read delivers, behind what it has already. -/
theorem readFrom_serves {current : Bytes} {chunks : List Bytes} {trailing : Bytes}
    (reversed : Bytes) (want : Nat) (h : r.Serves current chunks trailing) :
    ∃ r', readFrom want reversed r =
        (.ok (reversed.reverse ++ (current ++ chunks.flatten).take want), r') ∧
      r'.Delivers ((current ++ chunks.flatten).drop want) trailing ∧
      (r'.ended = true ↔ (current ++ chunks.flatten).length < want) := by
  -- Each round of the read takes at least one byte of the body, or ends it.
  induction hwant : want using Nat.strongRecOn generalizing r current chunks reversed want with
  | ind wanted ih =>
    subst hwant
    rw [readFrom]
    by_cases hzero : want = 0
    · subst hzero
      refine ⟨r, by simp, .inr ⟨current, chunks, h, by simp⟩, ?_⟩
      simp [h.ready.ended]
    rw [if_neg (by simp [hzero, h.ready.ended])]
    obtain ⟨r₁, hopen, hcases⟩ := openChunk_serves h
    rw [hopen]
    rcases hcases with ⟨hbody, hended, hpending⟩ | ⟨data, rest, hdata, hbody, hrest, hready⟩
    · rw [hbody]
      refine ⟨r₁, by simp [hended], .inl ⟨hended, by simp, hpending⟩, ?_⟩
      simp [hended]
      omega
    · obtain ⟨k, r₂, hk, hle, hlength, hread, hready'⟩ :=
        chunkData_run hdata (Nat.pos_of_ne_zero hzero) hready
      have hserves : r₂.Serves (data.drop k) rest trailing := ⟨hready', hrest⟩
      have hshorter : ¬ want ≤ want - k := by omega
      have hcount : (data.take k).length = k := by
        rw [List.length_take]
        omega
      obtain ⟨r₃, hmore, hdelivers, hend⟩ := @ih (want - k) (by omega) _ (data.drop k) rest
        ((data.take k).reverse ++ reversed) _ hserves rfl
      -- The bytes of this round and those of the later ones make up the bytes wanted.
      have htake : (data ++ rest.flatten).take want =
          data.take k ++ (data.drop k ++ rest.flatten).take (want - k) := by
        rw [← List.drop_append_of_le_length hlength, ← List.take_append_of_le_length hlength,
          ← List.take_add, Nat.add_sub_cancel' hle]
      have hdrop : (data ++ rest.flatten).drop want =
          (data.drop k ++ rest.flatten).drop (want - k) := by
        rw [← List.drop_append_of_le_length hlength, List.drop_drop, Nat.add_sub_cancel' hle]
      refine ⟨r₃, ?_, ?_, ?_⟩
      · simp only [hready.ended, Bool.false_eq_true, if_false, hread, hcount, dif_neg hshorter,
          hmore, ← hbody, htake]
        simp
      · rwa [← hbody, hdrop]
      · rw [hend, ← hbody]
        simp only [List.length_append, List.length_drop]
        omega

/-- What one read delivers. -/
theorem read_delivers {body trailing : Bytes} (h : r.Delivers body trailing) (n : Nat) :
    ∃ r', r.read n = (.ok (body.take n), r') ∧ r'.Delivers (body.drop n) trailing ∧
      (r'.ended = true ↔ r.ended = true ∨ body.length < n) := by
  rcases h with ⟨hended, rfl, hpending⟩ | ⟨current, chunks, hserves, rfl⟩
  · refine ⟨r, ?_, .inl ⟨hended, by simp, hpending⟩, by simp [hended]⟩
    rw [read, readFrom, if_pos (by simp [hended])]
    simp
  · obtain ⟨r', hread, hdelivers, hend⟩ := readFrom_serves [] n hserves
    refine ⟨r', ?_, hdelivers, ?_⟩
    · rw [read, hread]
      rfl
    · rw [hend, hserves.ready.ended]
      simp

/-- What a sequence of reads delivers. -/
theorem reads_delivers {body trailing : Bytes} (h : r.Delivers body trailing) (ns : List Nat) :
    ∃ r', r.reads ns = ((portions body ns).map .ok, r') ∧
      r'.Delivers (body.drop (asked ns)) trailing ∧
      (r'.ended = true ↔ r.ended = true ∨ body.length < asked ns) := by
  induction ns generalizing r body with
  | nil => exact ⟨r, rfl, h, by simp [asked]⟩
  | cons n ns ih =>
    obtain ⟨r₁, hread, hdelivers, hend⟩ := read_delivers h n
    obtain ⟨r₂, hreads, hdelivers', hend'⟩ := ih hdelivers
    refine ⟨r₂, ?_, ?_, ?_⟩
    · simp only [reads, hread, hreads, portions, List.map_cons]
    · rwa [asked, ← List.drop_drop]
    -- The first read ends the body, or else the later reads have to ask for more than it left.
    · rw [hend', hend, asked, List.length_drop, or_assoc]
      refine or_congr_right ?_
      omega

/-- A reader that ended is right before what is behind the body. -/
theorem Delivers.pending {body trailing : Bytes} (h : r.Delivers body trailing)
    (hended : r.ended = true) : r.input.pending = trailing := by
  rcases h with ⟨-, -, hpending⟩ | ⟨current, chunks, hserves, -⟩
  · exact hpending
  · rw [hserves.ready.ended] at hended
    cases hended

end Reader

/-- What a reader makes of what a writer put on the wire, with `trailing` behind it. The writer is
closed first behind the calls `before`. -/
structure RoundTrip (before after : List Writer.Call) (trailing : Bytes) (closed : Bool)
    (capacity : Buffered.Capacity) (ns : List Nat) : Prop where
  /-- Up to the close the calls succeed, and behind it they are refused. -/
  results : (Writer.calls {} (before ++ .finish :: after)).1 =
    before.map Writer.Call.accepted ++ .ok terminator :: after.map Writer.Call.refused
  /-- Nothing is put on the wire behind the closing chunk. -/
  wire : Writer.wire (Writer.calls {} (before ++ .finish :: after)).1 =
    Writer.wire (before.map Writer.Call.accepted) ++ terminator
  /-- The reads deliver what was written before the close, in portions of their sizes. The reader
  ends once it was asked for more, and then the portions are all that was written and the trailing
  bytes are the next ones. -/
  reads : ∃ r,
    (Reader.ofArrived (Writer.wire (Writer.calls {} (before ++ .finish :: after)).1 ++ trailing)
      closed capacity).reads ns = ((portions (before.flatMap Writer.Call.data) ns).map .ok, r) ∧
    (r.ended = true ↔ (before.flatMap Writer.Call.data).length < asked ns) ∧
    (r.ended = true → (portions (before.flatMap Writer.Call.data) ns).flatten =
      before.flatMap Writer.Call.data ∧ r.input.pending = trailing)

/-- Whatever the calls and the reads, a reader delivers what was written. The length of what is
written at once fits a machine word. -/
theorem roundTrip {before after : List Writer.Call} (hfirst : .finish ∉ before)
    (hsize : ∀ data, .write data ∈ before → data.length < UInt64.size) (trailing : Bytes)
    (closed : Bool) (capacity : Buffered.Capacity) (ns : List Nat) :
    RoundTrip before after trailing closed capacity ns := by
  have hcalls := Writer.calls_finish before after hfirst
  have hwire : Writer.wire (Writer.calls {} (before ++ .finish :: after)).1 =
      Writer.wire (before.map Writer.Call.accepted) ++ terminator := by
    rw [hcalls, Writer.wire_append, ← List.singleton_append, Writer.wire_append,
      Writer.wire_refused, List.append_nil]
    simp [Writer.wire, Except.toOption]
  refine ⟨congrArg Prod.fst hcalls, hwire, ?_⟩
  rw [hwire, Writer.wire_accepted hfirst]
  -- The reader starts as if right behind a chunk.
  have hserves : (Reader.ofArrived ((Writer.chunks before).flatMap chunk ++ terminator ++ trailing)
      closed capacity).Serves [] (Writer.chunks before) trailing := by
    refine ⟨⟨rfl, rfl, ?_⟩, ?_⟩
    · rw [Reader.unread, if_pos rfl, List.nil_append, ← List.append_assoc]
      rfl
    · intro data hdata
      exact ⟨Writer.ne_nil_of_mem_chunks hdata, hsize data (Writer.mem_of_mem_chunks hdata)⟩
  have hdelivers : Reader.Delivers _ (before.flatMap Writer.Call.data) trailing :=
    .inr ⟨[], Writer.chunks before, hserves, (Writer.flatten_chunks before).symm⟩
  obtain ⟨r, hreads, hdelivers', hend⟩ := Reader.reads_delivers hdelivers ns
  have hopen (arrived : Bytes) : (Reader.ofArrived arrived closed capacity).ended ≠ true := by
    simp [Reader.ofArrived]
  have hasked : r.ended = true ↔ (before.flatMap Writer.Call.data).length < asked ns :=
    hend.trans ⟨fun h => h.resolve_left (hopen _), .inr⟩
  refine ⟨r, hreads, hasked, fun hended => ⟨?_, hdelivers'.pending hended⟩⟩
  rw [flatten_portions, List.take_of_length_le (hasked.mp hended).le]

/-- A text in two writes, one of them empty, with calls behind the close, read two bytes at a time
through a buffer of a single byte. -/
theorem roundTrip_hello :
    RoundTrip [.write [104, 101, 108], .write [], .flush, .write [108, 111]]
      [.write [33], .flush, .finish] [71, 69, 84] true 1 [2, 2, 2, 2] := by
  refine roundTrip (by decide) ?_ _ _ _ _
  intro data hdata
  simp only [List.mem_cons, Writer.Call.write.injEq, reduceCtorEq, List.not_mem_nil, or_false,
    false_or] at hdata
  rcases hdata with rfl | rfl | rfl <;> decide

end HttpRelay.Chunked
