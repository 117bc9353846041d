import HttpRelay.Proofs.Transport.Buffered
import HttpRelay.Transport.Replay

/-!
# Reading replayed input

Bytes that were taken off a connection and are held in front of it are read like bytes that never
were taken: reads of any sizes, which may stop inside of what is held or behind it, while more
bytes arrive.

* `Turn`, `Replay.follow`: reads and arrivals in any order, and what the reads deliver;
* `Replay.readSome_some`, `Replay.readSome_none`: what a read delivers, and when it waits;
* `Replay.prepend_follow`: at any time what was delivered and what is left are the stream;
* `Replay.Delivers`, `Replay.delivers_toFeed`: reading a replay is reading a connection.
-/

namespace HttpRelay

/-- What happens on a connection: it is read, more bytes arrive, or the sender closes its side. -/
inductive Turn where
  | read (n : Nat)
  | arrive (bytes : Bytes)
  | close
  deriving DecidableEq, Repr

namespace Feed

/-- A feed with bytes in front of its own. -/
def prepend (bytes : Bytes) (feed : Feed) : Feed := { feed with arrived := bytes ++ feed.arrived }

theorem prepend_prepend (front back : Bytes) (feed : Feed) :
    (feed.prepend back).prepend front = feed.prepend (front ++ back) := by
  simp [prepend]

/-- A feed behind the part of its sender in a turn. The reader's part is none of its sender. -/
def hear (feed : Feed) : Turn → Feed
  | .read _ => feed
  | .arrive bytes => feed.push bytes
  | .close => feed.close

theorem hear_prepend (bytes : Bytes) (feed : Feed) (turn : Turn) :
    (feed.prepend bytes).hear turn = (feed.hear turn).prepend bytes := by
  cases turn with
  | read | close => rfl
  | arrive more =>
    cases hclosed : feed.closed with
    | false => simp [hear, push, prepend, hclosed]
    | true => simp [hear, push, prepend, hclosed]

/-- What is in front does not matter to what arrives behind it. -/
theorem foldl_hear_prepend (bytes : Bytes) (feed : Feed) (turns : List Turn) :
    turns.foldl hear (feed.prepend bytes) = (turns.foldl hear feed).prepend bytes := by
  induction turns generalizing feed with
  | nil => rfl
  | cons turn turns ih => rw [List.foldl_cons, List.foldl_cons, hear_prepend, ih]

/-- A reader takes no part in what the sender sends. -/
theorem foldl_hear_read (feed : Feed) (sizes : List Nat) :
    (sizes.map Turn.read).foldl hear feed = feed := by
  induction sizes with
  | nil => rfl
  | cons n sizes ih => exact ih

end Feed

namespace Replay

variable {r : Replay}

/-- What a turn delivers to the reader, and the replay behind it. -/
def turn (r : Replay) : Turn → Bytes × Replay
  | .read n =>
    match (r.readSome n : Except (Halt IoFailure) Bytes × Replay) with
    | (.ok data, r') => (data, r')
    | (.error _, r') => ([], r')
  | .arrive bytes => ([], { r with inner := r.inner.push bytes })
  | .close => ([], { r with inner := r.inner.close })

/-- What turns deliver to the reader, in order, and the replay behind them. -/
def follow (r : Replay) : List Turn → Bytes × Replay
  | [] => ([], r)
  | t :: turns => ((r.turn t).1 ++ ((r.turn t).2.follow turns).1, ((r.turn t).2.follow turns).2)

/-- A read delivers some of what is there. -/
theorem readSome_some (n : Nat) (hpending : r.pending ≠ []) :
    ∃ data r', (r.readSome n : Except (Halt IoFailure) Bytes × Replay) = (.ok data, r') ∧
      r'.toFeed.prepend data = r.toFeed ∧ data.length ≤ n ∧ (0 < n → data ≠ []) := by
  have hsome {bytes : Bytes} (hbytes : bytes ≠ []) (hn : 0 < n) : bytes.take n ≠ [] :=
    fun hnone => (List.take_eq_nil_iff.mp hnone).elim (Nat.pos_iff_ne_zero.mp hn) hbytes
  rw [readSome]
  split
  next hheld =>
    -- nothing is held, and the connection is read
    rw [List.isEmpty_iff] at hheld
    rw [pending, hheld, List.nil_append] at hpending
    rw [Feed.readSome, if_neg (mt List.isEmpty_iff.mp hpending)]
    refine ⟨_, _, rfl, ?_, List.length_take_le n _, hsome hpending⟩
    simp [toFeed, pending, Feed.prepend, hheld]
  next hheld =>
    refine ⟨_, _, rfl, ?_, List.length_take_le n _, hsome (mt List.isEmpty_iff.mpr hheld)⟩
    simp [toFeed, pending, Feed.prepend, ← List.append_assoc]

/-- When nothing is there, a read finds the end of the input, or waits for more of it. -/
theorem readSome_none (n : Nat) (hpending : r.pending = []) :
    (r.readSome n : Except (Halt IoFailure) Bytes × Replay) =
      (if r.inner.closed then .ok [] else .error .starved, r) := by
  obtain ⟨hheld, harrived⟩ := List.append_eq_nil_iff.mp hpending
  rw [readSome, if_pos (List.isEmpty_iff.mpr hheld), Feed.readSome,
    if_pos (List.isEmpty_iff.mpr harrived)]
  cases r.inner.closed <;> rfl

theorem turn_read_none (n : Nat) (hpending : r.pending = []) : r.turn (.read n) = ([], r) := by
  rw [turn, readSome_none n hpending]
  cases r.inner.closed <;> rfl

/-- With a turn, what it delivers goes over from what is there to what was delivered. -/
theorem prepend_turn (r : Replay) (t : Turn) :
    (r.turn t).2.toFeed.prepend (r.turn t).1 = r.toFeed.hear t := by
  cases t with
  | read n =>
    by_cases hpending : r.pending = []
    · rw [turn_read_none n hpending]
      rfl
    · obtain ⟨data, r', hread, hwhole, -⟩ := readSome_some n hpending
      rw [turn, hread]
      exact hwhole
  | arrive bytes => exact (Feed.hear_prepend r.held r.inner (.arrive bytes)).symm
  | close => rfl

/-- What was delivered and what is left are what was there and what has arrived since, each byte
once and in order. -/
theorem prepend_follow (r : Replay) (turns : List Turn) :
    (r.follow turns).2.toFeed.prepend (r.follow turns).1 = turns.foldl Feed.hear r.toFeed := by
  induction turns generalizing r with
  | nil => rfl
  | cons t turns ih =>
    -- what the first turn delivers stays in front of all that the others do
    rw [follow, ← Feed.prepend_prepend, ih, ← Feed.foldl_hear_prepend, prepend_turn,
      List.foldl_cons]

theorem follow_append (r : Replay) (turns more : List Turn) :
    r.follow (turns ++ more) =
      ((r.follow turns).1 ++ ((r.follow turns).2.follow more).1,
        ((r.follow turns).2.follow more).2) := by
  induction turns generalizing r with
  | nil => rfl
  | cons t turns ih => rw [List.cons_append, follow, follow, ih, List.append_assoc]

/-- As many reads with room as bytes are there deliver all of them. -/
theorem pending_follow_read {sizes : List Nat} (hroom : ∀ n ∈ sizes, 0 < n)
    (henough : r.pending.length ≤ sizes.length) :
    (r.follow (sizes.map .read)).2.pending = [] := by
  induction sizes generalizing r with
  | nil => exact List.length_eq_zero_iff.mp (Nat.le_zero.mp henough)
  | cons n sizes ih =>
    refine ih (fun m hm => hroom m (List.mem_cons_of_mem n hm)) ?_
    have hn := hroom n List.mem_cons_self
    rw [List.length_cons] at henough
    by_cases hpending : r.pending = []
    · rw [turn_read_none n hpending, hpending]
      exact Nat.zero_le _
    · -- the read takes at least one byte off what is there
      obtain ⟨data, r', hread, hwhole, -, hsome⟩ := readSome_some n hpending
      have hsplit : data ++ r'.pending = r.pending := congrArg Feed.arrived hwhole
      have hdata := List.length_pos_iff.mpr (hsome hn)
      rw [← hsplit, List.length_append] at henough
      rw [turn, hread]
      dsimp only
      omega

/-- Reading a replay is reading a connection, whatever the sizes of the reads and whatever arrives
between them. -/
structure Delivers (r : Replay) (feed : Feed) : Prop where
  /-- What was delivered and what is left are the stream, each byte once and in order. -/
  whole : ∀ turns, (r.follow turns).2.toFeed.prepend (r.follow turns).1 =
    turns.foldl Feed.hear feed
  /-- A read delivers at most as many bytes as it asks for, and at least one of those that are
  left. -/
  some_read : ∀ turns n, (r.follow turns).2.pending ≠ [] → ∃ data r',
    (r.follow turns).2.readSome n = ((.ok data : Except (Halt IoFailure) Bytes), r') ∧
      data.length ≤ n ∧ (0 < n → data ≠ [])
  /-- When all was delivered, a read finds the end of the stream, or waits for more of it. -/
  none_left : ∀ turns n, (r.follow turns).2.pending = [] →
    ((r.follow turns).2.readSome n : Except (Halt IoFailure) Bytes × Replay).1 =
      if (turns.foldl Feed.hear feed).closed then .ok [] else .error .starved
  /-- Reads that go on deliver the whole stream. -/
  drains : ∀ turns (sizes : List Nat), (∀ n ∈ sizes, 0 < n) →
    (turns.foldl Feed.hear feed).arrived.length ≤ sizes.length →
    (r.follow (turns ++ sizes.map .read)).1 = (turns.foldl Feed.hear feed).arrived

/-- Bytes that are held in front of a connection are read as if they had never been taken. -/
theorem delivers_toFeed (r : Replay) : r.Delivers r.toFeed where
  whole := prepend_follow r
  some_read turns n hleft := by
    obtain ⟨data, r', hread, -, hlength, hsome⟩ := readSome_some n hleft
    exact ⟨data, r', hread, hlength, hsome⟩
  none_left turns n hnothing := by
    rw [readSome_none n hnothing, ← prepend_follow r turns]
    rfl
  drains turns sizes hroom henough := by
    have hall := prepend_follow r (turns ++ sizes.map .read)
    rw [List.foldl_append, Feed.foldl_hear_read] at hall
    have hleft : (r.follow (turns ++ sizes.map .read)).2.pending = [] := by
      rw [follow_append]
      refine pending_follow_read hroom (le_trans ?_ henough)
      rw [← prepend_follow r turns, Feed.prepend, List.length_append]
      exact Nat.le_add_left _ _
    have harrived : (r.follow (turns ++ sizes.map .read)).1 ++
        (r.follow (turns ++ sizes.map .read)).2.pending =
          (turns.foldl Feed.hear r.toFeed).arrived := congrArg Feed.arrived hall
    rw [← harrived, hleft, List.append_nil]

end Replay

end HttpRelay
