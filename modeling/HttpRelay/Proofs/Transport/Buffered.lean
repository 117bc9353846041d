import HttpRelay.Transport.Buffered
import Mathlib.Data.List.TakeDrop
import Mathlib.Data.List.TakeWhile

/-!
# Reading what is pending

What a buffered input delivers, in terms of `Buffered.pending` alone: whatever the capacity, and
however the pending bytes are spread over buffer and feed.

* `readLineFrom_eq`: how far a line is read;
* `readLine_eq`: a pending line is read whole;
* `readSome_eq`: a read of some bytes delivers at least one of those that are pending;
* `readSome_end`: it delivers none at the end of the input;
* `readSome_close`, `readLineFrom_close`: whether more input may come is seen by a read that waits
  for it only.
-/

namespace HttpRelay

namespace Bytes

/-- A line and what is behind it are the whole. -/
theorem splitLine_append (bytes : Bytes) : (splitLine bytes).1 ++ (splitLine bytes).2 = bytes := by
  have hspan := List.takeWhile_append_dropWhile (p := (· != lf)) (l := bytes)
  rw [splitLine, List.span_eq_takeWhile_dropWhile]
  cases hrest : bytes.dropWhile (· != lf) with
  | nil =>
    rw [hrest, List.append_nil] at hspan
    simp [hspan]
  | cons last rest =>
    rw [hrest] at hspan
    simpa using hspan

/-- The test that ends a line fails on bytes without a line feed. -/
theorem bne_lf_of_not_mem {bytes : Bytes} (h : lf ∉ bytes) : ∀ b ∈ bytes, (b != lf) = true := by
  intro b hb
  simp only [bne_iff_ne]
  rintro rfl
  exact h hb

theorem fst_splitLine_eq (bytes : Bytes) :
    (splitLine bytes).1 = bytes.takeWhile (· != lf) ++ (bytes.dropWhile (· != lf)).take 1 := by
  rw [splitLine, List.span_eq_takeWhile_dropWhile]
  cases bytes.dropWhile (· != lf) <;> simp

/-- Bytes without a line feed are the beginning of a line that goes on behind them. -/
theorem fst_splitLine_append_of_not_mem {bytes : Bytes} (h : lf ∉ bytes) (more : Bytes) :
    (splitLine (bytes ++ more)).1 = bytes ++ (splitLine more).1 := by
  have hall := bne_lf_of_not_mem h
  rw [fst_splitLine_eq, fst_splitLine_eq, List.takeWhile_append_of_pos hall,
    List.dropWhile_append_of_pos hall, List.append_assoc]

/-- Bytes with a line feed are a line and more. -/
theorem exists_line_of_mem {bytes : Bytes} (h : lf ∈ bytes) :
    ∃ line rest, bytes = line ++ lf :: rest ∧ lf ∉ line := by
  obtain ⟨line, rest, hsplit, hline⟩ := List.eq_append_cons_of_mem h
  exact ⟨line, rest, hsplit, hline⟩

theorem fst_splitLine_append {line : Bytes} (h : lf ∉ line) (rest : Bytes) :
    (splitLine (line ++ lf :: rest)).1 = line ++ [lf] := by
  rw [fst_splitLine_append_of_not_mem h, fst_splitLine_eq]
  simp

/-- All through the first line feed, but no more than `limit` bytes. -/
def lineWithin (limit : Nat) (bytes : Bytes) : Bytes := (splitLine (bytes.take limit)).1

@[simp] theorem lineWithin_nil (limit : Nat) : lineWithin limit [] = [] := by
  simp [lineWithin, fst_splitLine_eq]

@[simp] theorem lineWithin_zero (bytes : Bytes) : lineWithin 0 bytes = [] := by
  simp [lineWithin, fst_splitLine_eq]

theorem lineWithin_prefix_take (limit : Nat) (bytes : Bytes) :
    lineWithin limit bytes <+: bytes.take limit :=
  ⟨_, splitLine_append _⟩

theorem lineWithin_prefix (limit : Nat) (bytes : Bytes) : lineWithin limit bytes <+: bytes :=
  (lineWithin_prefix_take limit bytes).trans (List.take_prefix limit bytes)

theorem length_lineWithin_le (limit : Nat) (bytes : Bytes) :
    (lineWithin limit bytes).length ≤ limit :=
  (lineWithin_prefix_take limit bytes).length_le.trans (List.length_take_le limit bytes)

/-- Where a line feed was found, it is the only one, and the last byte of all. -/
theorem exists_front_of_lineWithin {limit : Nat} {bytes : Bytes}
    (h : (lineWithin limit bytes).getLast? = some lf) :
    ∃ front, lineWithin limit bytes = front ++ [lf] ∧ lf ∉ front := by
  have hfront : lf ∉ (bytes.take limit).takeWhile (· != lf) := by
    intro hmem
    have hbne := List.mem_takeWhile_imp hmem
    simp at hbne
  rw [lineWithin, fst_splitLine_eq] at h ⊢
  cases hrest : (bytes.take limit).dropWhile (· != lf) with
  | nil =>
    rw [hrest, List.take_nil, List.append_nil] at h
    exact absurd (List.mem_of_getLast? h) hfront
  | cons last rest =>
    rw [hrest, List.take_succ_cons, List.take_zero, List.getLast?_concat, Option.some.injEq] at h
    exact ⟨_, by rw [h, List.take_succ_cons, List.take_zero], hfront⟩

/-- A line that ends within the limit. -/
theorem lineWithin_of_lt {line : Bytes} (h : lf ∉ line) (rest : Bytes) {limit : Nat}
    (hlimit : line.length < limit) : lineWithin limit (line ++ lf :: rest) = line ++ [lf] := by
  obtain ⟨room, rfl⟩ := Nat.exists_eq_add_of_lt hlimit
  have htake : (line ++ lf :: rest).take (line.length + room + 1) =
      line ++ lf :: rest.take room := by
    rw [Nat.add_assoc, List.take_length_add_append, List.take_succ_cons]
  rw [lineWithin, htake, fst_splitLine_append h]

/-- A line that runs on behind its first bytes. -/
theorem lineWithin_append {taken : Bytes} (h : lf ∉ taken) {limit : Nat}
    (hlimit : taken.length ≤ limit) (rest : Bytes) :
    lineWithin limit (taken ++ rest) = taken ++ lineWithin (limit - taken.length) rest := by
  rw [lineWithin, List.take_append, List.take_of_length_le hlimit,
    fst_splitLine_append_of_not_mem h, lineWithin]

end Bytes

/-- What a read delivers is what was there and is not left. -/
theorem Feed.readSome_ok {ε : Type} {feed feed' : Feed} {n : Nat} {data : Bytes}
    (h : (feed.readSome n : Except (Halt ε) Bytes × Feed) = (.ok data, feed')) :
    feed.arrived = data ++ feed'.arrived ∧ data.length ≤ n := by
  rw [Feed.readSome] at h
  split at h
  next =>
    split at h
    · obtain ⟨hdata, rfl⟩ := Prod.mk.inj h
      obtain rfl := Except.ok.inj hdata
      exact ⟨rfl, Nat.zero_le n⟩
    · cases (Prod.mk.inj h).1
  next =>
    obtain ⟨hdata, rfl⟩ := Prod.mk.inj h
    obtain rfl := Except.ok.inj hdata
    exact ⟨(List.take_append_drop n feed.arrived).symm, List.length_take_le n _⟩

/-- A read that does not wait for more bytes is the same when the input ends where it is. -/
theorem Feed.readSome_close {ε : Type} {feed feed' : Feed} {n : Nat}
    {answer : Except (Halt ε) Bytes} (h : feed.readSome n = (answer, feed'))
    (hanswer : answer ≠ .error .starved) : feed.close.readSome n = (answer, feed'.close) := by
  unfold Feed.readSome at h ⊢
  change (if feed.arrived.isEmpty = true then _ else _) = _
  split
  next hempty =>
    rw [if_pos hempty] at h
    split at h
    · obtain ⟨rfl, rfl⟩ := Prod.mk.inj h
      rfl
    · exact absurd (Prod.mk.inj h).1.symm hanswer
  next hsome =>
    rw [if_neg hsome] at h
    obtain ⟨rfl, rfl⟩ := Prod.mk.inj h
    rfl

namespace Buffered

variable {ε : Type} {b : Buffered}

@[simp] theorem closed_fill (b : Buffered) : b.fill.feed.closed = b.feed.closed := by
  unfold fill
  split <;> rfl

/-- Behind a fill, the buffer is not empty unless nothing is pending. -/
theorem buffer_fill_ne_nil (hpending : b.pending ≠ []) : b.fill.buffer ≠ [] := by
  rw [fill]
  split
  next hempty =>
    -- what is pending has arrived, and the capacity lets some of it in
    have harrived : b.feed.arrived ≠ [] := by
      simpa [pending, List.isEmpty_iff.mp hempty] using hpending
    simp only [ne_eq, List.take_eq_nil_iff, not_or]
    exact ⟨b.capacity.pos.ne', harrived⟩
  next hbuffer => simpa using hbuffer

/-- A line taken off the buffer is what is no longer pending. -/
theorem takeLine_append_pending (b : Buffered) (limit : Nat) :
    (b.takeLine limit).1 ++ (b.takeLine limit).2.pending = b.pending := by
  have hprefix : (b.takeLine limit).1 <+: b.buffer := by
    have hline : (b.takeLine limit).1 <+: b.buffer.take limit := by
      refine ⟨(Bytes.splitLine (b.buffer.take limit)).2, ?_⟩
      exact Bytes.splitLine_append _
    exact hline.trans (List.take_prefix limit b.buffer)
  have htaken := List.prefix_iff_eq_take.mp hprefix
  have hbuffer := List.take_append_drop (b.takeLine limit).1.length b.buffer
  rw [← htaken] at hbuffer
  change (b.takeLine limit).1 ++ (b.buffer.drop (b.takeLine limit).1.length ++ b.feed.arrived) =
    b.buffer ++ b.feed.arrived
  rw [← List.append_assoc, hbuffer]

/-- A line that ends in the part of the buffer that is looked at. -/
theorem fst_takeLine_of_mem {limit : Nat} (h : Bytes.lf ∈ b.buffer.take limit) :
    (b.takeLine limit).1 = Bytes.lineWithin limit b.pending ∧
      (b.takeLine limit).1.getLast? = some Bytes.lf := by
  obtain ⟨line, rest, hsplit, hline⟩ := Bytes.exists_line_of_mem h
  have hpending : b.pending.take limit =
      line ++ Bytes.lf :: (rest ++ b.feed.arrived.take (limit - b.buffer.length)) := by
    rw [pending, List.take_append, hsplit, List.append_assoc, List.cons_append]
  have htaken : (b.takeLine limit).1 = line ++ [Bytes.lf] := by
    rw [takeLine, hsplit]
    exact Bytes.fst_splitLine_append hline rest
  refine ⟨?_, by simp [htaken]⟩
  rw [htaken, Bytes.lineWithin, hpending, Bytes.fst_splitLine_append hline]

/-- A line that runs on behind the part of the buffer that is looked at. -/
theorem fst_takeLine_of_not_mem {limit : Nat} (h : Bytes.lf ∉ b.buffer.take limit) :
    (b.takeLine limit).1 = b.buffer.take limit := by
  have hline := Bytes.fst_splitLine_append_of_not_mem h []
  rw [List.append_nil, Bytes.fst_splitLine_eq []] at hline
  simpa [takeLine] using hline

/-- A line is read off what is pending, behind what was read of it before, as soon as that is
decided: by its line feed, by the limit, or by the end of the input. -/
theorem readLineFrom_eq (reversed : Bytes) (limit : Nat)
    (hdecided : b.feed.closed = true ∨ limit ≤ b.pending.length ∨
      Bytes.lf ∈ b.pending.take limit) :
    ∃ b', (b.readLineFrom limit reversed : Except (Halt ε) Bytes × Buffered) =
        (.ok (reversed.reverse ++ Bytes.lineWithin limit b.pending), b') ∧
      Bytes.lineWithin limit b.pending ++ b'.pending = b.pending ∧
      b'.feed.closed = b.feed.closed := by
  -- Each round that does not end the line takes some of it off the buffer, and of the limit.
  induction hwant : limit using Nat.strongRecOn generalizing limit reversed b with
  | ind limit' ih =>
    subst hwant
    by_cases hzero : limit = 0
    · subst hzero
      exact ⟨b, by simp [readLineFrom], by simp, rfl⟩
    rw [readLineFrom, if_neg hzero]
    by_cases hfill : b.fill.buffer = []
    · -- nothing is pending, and nothing will be
      have hnil : b.pending = [] := by
        refine Classical.byContradiction fun hsome => ?_
        exact buffer_fill_ne_nil hsome hfill
      have hclosed : b.feed.closed = true := by
        rcases hdecided with hclosed | hlimit | hmem
        · exact hclosed
        · rw [hnil, List.length_nil] at hlimit
          omega
        · rw [hnil] at hmem
          simp at hmem
      have hend : b.fill.atEnd = true := by simp [atEnd, hfill, hclosed]
      refine ⟨b.fill, ?_, ?_, closed_fill b⟩
      · simp [hfill, hend, hnil]
      · simp [hnil]
    have hsplit := takeLine_append_pending b.fill limit
    have hclosed' : (b.fill.takeLine limit).2.feed.closed = b.feed.closed := closed_fill b
    rw [if_neg (by simpa using hfill)]
    by_cases hmem : Bytes.lf ∈ b.fill.buffer.take limit
    · -- the line ends here, and what is behind it stays pending
      obtain ⟨htaken, hlast⟩ := fst_takeLine_of_mem hmem
      rw [pending_fill] at hsplit htaken
      refine ⟨(b.fill.takeLine limit).2, ?_, htaken ▸ hsplit, hclosed'⟩
      simp only [if_pos hlast]
      simp [htaken]
    · -- some of the line is taken, so that both what is pending and the limit get shorter
      have htaken := fst_takeLine_of_not_mem hmem
      have hbuffer := List.length_pos_iff.mpr hfill
      rw [pending_fill] at hsplit
      obtain ⟨taken, b₁, hround⟩ : ∃ taken b₁, b.fill.takeLine limit = (taken, b₁) := ⟨_, _, rfl⟩
      rw [hround] at hsplit hclosed' htaken
      simp only [hround]
      dsimp only at hsplit hclosed' htaken
      rw [← htaken] at hmem
      have hcount : taken.length = min limit b.fill.buffer.length := by
        rw [htaken, List.length_take]
      have hlast : taken.getLast? ≠ some Bytes.lf := fun hlast => hmem (List.mem_of_getLast? hlast)
      have hshorter : ¬ limit ≤ limit - taken.length := by omega
      have hdecided' : b₁.feed.closed = true ∨ limit - taken.length ≤ b₁.pending.length ∨
          Bytes.lf ∈ b₁.pending.take (limit - taken.length) := by
        rw [← hsplit, List.length_append, List.take_append,
          List.take_of_length_le (by omega)] at hdecided
        rw [hclosed']
        refine hdecided.imp_right (Or.imp (fun h => by omega) fun h => ?_)
        exact (List.mem_append.mp h).resolve_left hmem
      obtain ⟨b', hread, hrest, hclosed''⟩ :=
        @ih (limit - taken.length) (by omega) b₁ (taken.reverse ++ reversed) _ hdecided' rfl
      rw [if_neg hlast, dif_neg hshorter, hread, ← hsplit,
        Bytes.lineWithin_append hmem (by omega)]
      refine ⟨b', ?_, ?_, hclosed''.trans hclosed'⟩
      · simp
      · rw [List.append_assoc, hrest]

/-- A pending line is read whole. -/
theorem readLine_eq {line rest : Bytes} {limit : Nat} (hline : Bytes.lf ∉ line)
    (hpending : b.pending = line ++ Bytes.lf :: rest) (hlimit : line.length < limit) :
    ∃ b', (b.readLine limit : Except (Halt ε) Bytes × Buffered) = (.ok (line ++ [Bytes.lf]), b') ∧
      b'.pending = rest := by
  have hwithin := Bytes.lineWithin_of_lt hline rest hlimit
  have hmem : Bytes.lf ∈ b.pending.take limit := by
    have hbegin : line ++ [Bytes.lf] <+: b.pending.take limit := by
      rw [hpending, ← hwithin]
      exact ⟨_, Bytes.splitLine_append _⟩
    exact hbegin.subset (List.mem_append_right line List.mem_cons_self)
  obtain ⟨b', hread, hrest, -⟩ := readLineFrom_eq (ε := ε) [] limit (.inr (.inr hmem))
  rw [hpending, hwithin] at hread hrest
  refine ⟨b', hread, ?_⟩
  rw [← List.append_cancel_left_eq (line ++ [Bytes.lf]), hrest]
  simp

/-- A read of some bytes delivers at least one, when there is one. -/
theorem readSome_eq {n : Nat} (hn : 0 < n) (hpending : b.pending ≠ []) :
    ∃ k b', 0 < k ∧ k ≤ n ∧ k ≤ b.pending.length ∧
      (b.readSome n : Except (Halt ε) Bytes × Buffered) = (.ok (b.pending.take k), b') ∧
      b'.pending = b.pending.drop k ∧ b'.feed.closed = b.feed.closed := by
  rw [readSome]
  split
  next hdirect =>
    -- The buffer is empty and is passed by.
    obtain ⟨hbuffer, -⟩ := Bool.and_eq_true_iff.mp hdirect
    rw [List.isEmpty_iff] at hbuffer
    have hall : b.pending = b.feed.arrived := by rw [pending, hbuffer, List.nil_append]
    rw [hall] at hpending ⊢
    have hlength := List.length_pos_iff.mpr hpending
    refine ⟨min n b.feed.arrived.length, { b with
      feed := { b.feed with arrived := b.feed.arrived.drop n } }, by omega, by omega, by omega,
      ?_, ?_, rfl⟩
    · rw [Feed.readSome, if_neg (by simpa using hpending), ← List.take_eq_take_min]
    · change b.buffer ++ b.feed.arrived.drop n = _
      rw [hbuffer, List.nil_append, ← List.drop_eq_drop_min]
  next =>
    -- The buffer, once filled, holds the first of the pending bytes.
    have hfill := buffer_fill_ne_nil hpending
    have hlength := List.length_pos_iff.mpr hfill
    have hall : b.pending = b.fill.buffer ++ b.fill.feed.arrived := (pending_fill b).symm
    have hle : min n b.fill.buffer.length ≤ b.fill.buffer.length := Nat.min_le_right _ _
    refine ⟨min n b.fill.buffer.length, { b.fill with buffer := b.fill.buffer.drop n }, by omega,
      by omega, ?_, ?_, ?_, closed_fill b⟩
    · rw [hall, List.length_append]
      omega
    · rw [if_neg (by simp [hfill]), hall, List.take_append_of_le_length hle,
        ← List.take_eq_take_min]
    · change b.fill.buffer.drop n ++ b.fill.feed.arrived = _
      rw [hall, List.drop_append_of_le_length hle, ← List.drop_eq_drop_min]

/-- At the end of the input nothing is delivered. -/
theorem readSome_end {n : Nat} (hpending : b.pending = []) (hclosed : b.feed.closed = true) :
    ∃ b', (b.readSome n : Except (Halt ε) Bytes × Buffered) = (.ok [], b') ∧ b'.pending = [] := by
  obtain ⟨hbuffer, harrived⟩ := List.append_eq_nil_iff.mp hpending
  rw [readSome]
  split
  · rw [Feed.readSome, harrived, hclosed]
    exact ⟨_, rfl, by simp [pending, hbuffer, harrived]⟩
  · have hfill : b.fill.buffer = [] := by simp [fill, hbuffer, harrived]
    have hend : b.fill.atEnd = true := by simp [atEnd, hfill, hclosed]
    have hleft : b.fill.feed.arrived = [] := by simp [fill, hbuffer, harrived]
    refine ⟨{ b.fill with buffer := b.fill.buffer.drop n }, ?_, ?_⟩
    · simp [hfill, hend]
    · simp [pending, hfill, hleft]

section Delivering

variable {b' : Buffered}

/-- What a read delivers is what is no longer pending. -/
theorem readSome_ok {n : Nat} {data : Bytes}
    (h : (b.readSome n : Except (Halt ε) Bytes × Buffered) = (.ok data, b')) :
    b.pending = data ++ b'.pending ∧ data.length ≤ n := by
  rw [readSome] at h
  split at h
  next hdirect =>
    -- the buffer is empty and passed by
    obtain ⟨hbuffer, -⟩ := Bool.and_eq_true_iff.mp hdirect
    rw [List.isEmpty_iff] at hbuffer
    rcases hread : (b.feed.readSome n : Except (Halt ε) Bytes × Feed) with ⟨answer, feed⟩
    rw [hread] at h
    obtain ⟨rfl, rfl⟩ := Prod.mk.inj h
    rw [pending, pending, hbuffer, List.nil_append, List.nil_append]
    exact Feed.readSome_ok hread
  next =>
    dsimp only at h
    split at h
    · cases (Prod.mk.inj h).1
    · obtain ⟨hdata, rfl⟩ := Prod.mk.inj h
      obtain rfl := Except.ok.inj hdata
      refine ⟨?_, List.length_take_le n _⟩
      rw [← pending_fill b, pending, pending, ← List.append_assoc, List.take_append_drop]

theorem readLineFrom_ok {limit : Nat} {reversed line : Bytes}
    (h : (b.readLineFrom limit reversed : Except (Halt ε) Bytes × Buffered) = (.ok line, b')) :
    reversed.reverse ++ b.pending = line ++ b'.pending := by
  induction hwant : limit using Nat.strongRecOn generalizing limit reversed b with
  | ind limit' ih =>
    subst hwant
    rw [readLineFrom] at h
    split at h
    next =>
      obtain ⟨hline, rfl⟩ := Prod.mk.inj h
      obtain rfl := Except.ok.inj hline
      rfl
    next =>
      rw [← pending_fill b]
      split at h
      next =>
        split at h
        · obtain ⟨hline, rfl⟩ := Prod.mk.inj h
          obtain rfl := Except.ok.inj hline
          rfl
        · cases (Prod.mk.inj h).1
      next =>
        -- the bytes that this round takes off the buffer join those read before
        rcases hround : b.fill.takeLine limit with ⟨taken, b₁⟩
        have htaken : taken ++ b₁.pending = b.fill.pending := by
          rw [← takeLine_append_pending b.fill limit, hround]
        have hjoined : reversed.reverse ++ b.fill.pending =
            (taken.reverse ++ reversed).reverse ++ b₁.pending := by
          rw [← htaken]
          simp
        rw [hround] at h
        dsimp only at h
        rw [hjoined]
        split at h
        next =>
          obtain ⟨hline, rfl⟩ := Prod.mk.inj h
          obtain rfl := Except.ok.inj hline
          rfl
        next =>
          split at h
          next =>
            obtain ⟨hline, rfl⟩ := Prod.mk.inj h
            obtain rfl := Except.ok.inj hline
            rfl
          next hshorter => exact ih _ (by omega) h rfl

/-- A line that is read is what is no longer pending. -/
theorem readLine_ok {limit : Nat} {line : Bytes}
    (h : (b.readLine limit : Except (Halt ε) Bytes × Buffered) = (.ok line, b')) :
    b.pending = line ++ b'.pending :=
  readLineFrom_ok h

end Delivering

section Closing

variable {b' : Buffered} {answer : Except (Halt ε) Bytes}

@[simp] theorem buffer_close (b : Buffered) : b.close.buffer = b.buffer := rfl

@[simp] theorem capacity_close (b : Buffered) : b.close.capacity = b.capacity := rfl

@[simp] theorem closed_close (b : Buffered) : b.close.feed.closed = true := rfl

theorem fill_close (b : Buffered) : b.close.fill = b.fill.close := by
  unfold fill
  rw [buffer_close]
  split <;> rfl

theorem takeLine_close (b : Buffered) (limit : Nat) :
    b.close.takeLine limit = ((b.takeLine limit).1, (b.takeLine limit).2.close) := rfl

/-- What the buffer holds does not depend on the end of the input. -/
theorem atEnd_close (h : b.atEnd = true) : b.close.atEnd = true := by
  simp only [atEnd, Bool.and_eq_true] at h
  simp [atEnd, h.1]

theorem readSome_close {n : Nat} (h : b.readSome n = (answer, b'))
    (hanswer : answer ≠ .error .starved) : b.close.readSome n = (answer, b'.close) := by
  unfold readSome at h ⊢
  rw [buffer_close, capacity_close]
  split
  next hdirect =>
    rw [if_pos hdirect] at h
    rcases hread : (b.feed.readSome n : Except (Halt ε) Bytes × Feed) with ⟨answer', feed⟩
    rw [hread] at h
    obtain ⟨rfl, rfl⟩ := Prod.mk.inj h
    rw [close, Feed.readSome_close hread hanswer]
    rfl
  next hbuffered =>
    rw [if_neg hbuffered] at h
    dsimp only at h ⊢
    rw [fill_close, buffer_close]
    by_cases hwaits : (b.fill.buffer.isEmpty && !b.fill.atEnd) = true
    · rw [if_pos hwaits] at h
      exact absurd (Prod.mk.inj h).1.symm hanswer
    · rw [if_neg hwaits] at h
      obtain ⟨rfl, rfl⟩ := Prod.mk.inj h
      refine if_neg fun hwaits' => ?_
      -- behind the end of the input no read waits
      simp only [atEnd, buffer_close, closed_close, Bool.and_true, Bool.and_not_self,
        Bool.false_eq_true] at hwaits'

theorem readLineFrom_close {limit : Nat} {reversed : Bytes}
    (h : b.readLineFrom limit reversed = (answer, b')) (hanswer : answer ≠ .error .starved) :
    b.close.readLineFrom limit reversed = (answer, b'.close) := by
  induction hwant : limit using Nat.strongRecOn generalizing limit reversed b with
  | ind limit' ih =>
    subst hwant
    rw [readLineFrom] at h ⊢
    rw [fill_close, buffer_close, takeLine_close]
    split
    next hlimit =>
      rw [if_pos hlimit] at h
      obtain ⟨rfl, rfl⟩ := Prod.mk.inj h
      rfl
    next hlimit =>
      rw [if_neg hlimit] at h
      split
      next hempty =>
        rw [if_pos hempty] at h
        obtain ⟨hsame, rfl⟩ := Prod.mk.inj h
        by_cases hend : b.fill.atEnd = true
        · rw [if_pos hend] at hsame
          rw [if_pos (atEnd_close hend), hsame]
        · rw [if_neg hend] at hsame
          exact absurd hsame.symm hanswer
      next hempty =>
        rw [if_neg hempty] at h
        rcases hround : b.fill.takeLine limit with ⟨taken, b₁⟩
        rw [hround] at h
        dsimp only at h ⊢
        split
        next hlast =>
          rw [if_pos hlast] at h
          obtain ⟨rfl, rfl⟩ := Prod.mk.inj h
          rfl
        next hlast =>
          rw [if_neg hlast] at h
          split
          next hsame =>
            rw [dif_pos hsame] at h
            obtain ⟨rfl, rfl⟩ := Prod.mk.inj h
            rfl
          next hshorter =>
            rw [dif_neg hshorter] at h
            exact ih _ (by omega) h rfl

/-- A read that waits for more input finds its end once the input ends. -/
theorem readSome_starved {n : Nat}
    (h : (b.readSome n : Except (Halt ε) Bytes × Buffered) = (.error .starved, b')) :
    ∃ b'', (b.close.readSome n : Except (Halt ε) Bytes × Buffered) = (.ok [], b'') := by
  unfold readSome at h ⊢
  rw [buffer_close, capacity_close]
  split
  next hdirect =>
    rw [if_pos hdirect, Feed.readSome] at h
    have harrived : b.feed.arrived.isEmpty = true := by
      by_contra hsome
      rw [if_neg hsome] at h
      cases (Prod.mk.inj h).1
    have hclosed : (b.close.feed.readSome n : Except (Halt ε) Bytes × Feed) =
        (.ok [], b.close.feed) := by
      rw [Feed.readSome]
      exact (if_pos harrived).trans (if_pos rfl)
    rw [hclosed]
    exact ⟨_, rfl⟩
  next hbuffered =>
    rw [if_neg hbuffered] at h
    dsimp only at h ⊢
    rw [fill_close, buffer_close]
    have hempty : b.fill.buffer.isEmpty = true := by
      by_contra hsome
      rw [Bool.not_eq_true] at hsome
      rw [hsome, Bool.false_and, if_neg Bool.false_ne_true] at h
      cases (Prod.mk.inj h).1
    have hend : b.fill.close.atEnd = true := by simp [atEnd, hempty]
    rw [hend, Bool.not_true, Bool.and_false, if_neg Bool.false_ne_true,
      List.isEmpty_iff.mp hempty, List.take_nil]
    exact ⟨_, rfl⟩

/-- A search for a line feed that waits for more input finds none once the input ends. -/
theorem readLineFrom_starved {limit : Nat} {reversed : Bytes}
    (h : (b.readLineFrom limit reversed : Except (Halt ε) Bytes × Buffered) =
      (.error .starved, b')) :
    ∃ part b'', (b.close.readLineFrom limit reversed : Except (Halt ε) Bytes × Buffered) =
        (.ok (reversed.reverse ++ part), b'') ∧ Bytes.lf ∉ part ∧ part.length < limit := by
  induction hwant : limit using Nat.strongRecOn generalizing limit reversed b with
  | ind limit' ih =>
    subst hwant
    rw [readLineFrom] at h ⊢
    rw [fill_close, buffer_close, takeLine_close]
    by_cases hzero : limit = 0
    · rw [if_pos hzero] at h
      cases (Prod.mk.inj h).1
    rw [if_neg hzero] at h ⊢
    by_cases hempty : b.fill.buffer.isEmpty = true
    · -- nothing is there, and nothing will be
      have hend : b.fill.close.atEnd = true := by simp [atEnd, hempty]
      rw [if_pos hempty, if_pos hend]
      exact ⟨[], _, by rw [List.append_nil], List.not_mem_nil, Nat.pos_of_ne_zero hzero⟩
    rw [if_neg hempty] at h ⊢
    rcases hround : b.fill.takeLine limit with ⟨taken, b₁⟩
    rw [hround] at h
    dsimp only at h ⊢
    by_cases hlast : taken.getLast? = some Bytes.lf
    · rw [if_pos hlast] at h
      cases (Prod.mk.inj h).1
    rw [if_neg hlast] at h ⊢
    by_cases hsame : limit ≤ limit - taken.length
    · rw [dif_pos hsame] at h
      cases (Prod.mk.inj h).1
    rw [dif_neg hsame] at h ⊢
    -- what this round took has no line feed, and the later rounds find none either
    have hnone : Bytes.lf ∉ taken := by
      have hbuffer : Bytes.lf ∉ b.fill.buffer.take limit := by
        intro hmem
        have hfound := (fst_takeLine_of_mem hmem).2
        rw [hround] at hfound
        exact hlast hfound
      have htaken : taken = b.fill.buffer.take limit := by
        rw [← fst_takeLine_of_not_mem hbuffer, hround]
      rwa [htaken]
    obtain ⟨part, b'', hread, hpart, hlength⟩ := ih _ (by omega) h rfl
    refine ⟨taken ++ part, b'', ?_, ?_, ?_⟩
    · rw [hread, List.reverse_append, List.reverse_reverse, List.append_assoc]
    · rw [List.mem_append]
      exact not_or.mpr ⟨hnone, hpart⟩
    · rw [List.length_append]
      omega

end Closing

end Buffered

end HttpRelay
