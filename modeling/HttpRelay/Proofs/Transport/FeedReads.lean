import HttpRelay.Proofs.Transport.Incremental

/-!
# What a read of a connection accepts

A read of a connection is described by the bytes that it accepts off the front of what arrived,
and by what they mean to it. Behind a close nothing is waited for, so that a read of exact reads
either accepts such a front or fails.

* `Feed.Parses`: a read that accepts a front of the bytes and takes it;
* `Parses.bind`, `Parses.guard`: how the descriptions are put together;
* `Exact.closed_cases`: on closed input a read gives a value or fails, and waits for nothing.
-/

namespace HttpRelay.Feed

open Outcome

variable {ε α β : Type}

/-- A read that accepts a front of the bytes that arrived, and takes it. -/
def Parses (read : Read ε α) (P : α → Bytes → Prop) : Prop :=
  ∀ (feed : Feed) (a : α) (left : Bytes),
    run feed read = (.ok a, { feed with arrived := left }) ↔
      ∃ front, feed.arrived = front ++ left ∧ P a front

section Descriptions

variable {read : Read ε α} {next : α → Read ε β} {P P' : α → Bytes → Prop}
  {Q : α → β → Bytes → Prop}

theorem Parses.congr (h : Parses read P) (hiff : ∀ a bytes, P a bytes ↔ P' a bytes) :
    Parses read P' := by
  intro feed a left
  rw [h feed a left]
  simp only [hiff]

theorem parses_pure (a : α) :
    Parses (pure a : Read ε α) fun value bytes => value = a ∧ bytes = [] := by
  intro feed value left
  constructor
  · intro hrun
    obtain ⟨hvalue, hfeed⟩ := Prod.mk.inj hrun
    exact ⟨[], congrArg Feed.arrived hfeed, (Except.ok.inj hvalue).symm, rfl⟩
  · rintro ⟨front, hfront, rfl, rfl⟩
    have hsame : feed = { feed with arrived := left } := congrArg (Feed.mk · feed.closed) hfront
    exact congrArg (Prod.mk _) hsame

theorem parses_fail (error : ε) : Parses (fail error : Read ε α) fun _ _ => False :=
  fun _ _ _ => ⟨fun hrun => (nomatch hrun), fun ⟨_, _, hfalse⟩ => hfalse.elim⟩

/-- The exact read of some bytes accepts any that many. -/
theorem parses_bytes (n : Nat) (f : IoFailure → ε) :
    Parses (orFail (readExact n) f) fun taken bytes => taken = bytes ∧ bytes.length = n := by
  intro feed taken left
  constructor
  · intro hrun
    obtain ⟨hle, rfl, hfeed⟩ := bytes_ok hrun
    obtain rfl : left = feed.arrived.drop n := congrArg Feed.arrived hfeed
    exact ⟨_, (List.take_append_drop n feed.arrived).symm, rfl, List.length_take_of_le hle⟩
  · rintro ⟨front, hfront, rfl, hlength⟩
    subst hlength
    have hexact : run feed (readExact taken.length) =
        (.ok taken, { feed with arrived := left }) := by
      change (if taken.length ≤ feed.arrived.length then _ else _) = _
      rw [hfront, if_pos (by rw [List.length_append]; omega), List.take_left, List.drop_left]
    rw [run_orFail, hexact]

/-- Two reads in a row accept two byte strings in a row, if the first one leaves the flag of its
input alone. -/
theorem Parses.bind (hread : Parses read P) (hexact : Exact read)
    (hnext : ∀ a, Parses (next a) (Q a)) :
    Parses (read >>= next) fun b bytes =>
      ∃ a first second, bytes = first ++ second ∧ P a first ∧ Q a b second := by
  intro feed b left
  rw [run, run_bind]
  constructor
  · intro hrun
    rcases hfirst : read.run.run feed with ⟨halt | a, ⟨middle, closed⟩⟩ <;> rw [hfirst] at hrun
    · cases (Prod.mk.inj hrun).1
    · obtain ⟨hflag, -⟩ := hexact.steady feed.arrived feed.closed a _ hfirst
      obtain rfl : closed = feed.closed := hflag
      obtain ⟨first, hfront, ha⟩ := (hread feed a _).mp hfirst
      obtain ⟨second, hmiddle, hb⟩ := (hnext a _ b left).mp hrun
      obtain rfl : middle = second ++ left := hmiddle
      exact ⟨first ++ second, by rw [hfront, List.append_assoc], a, first, second, rfl, ha, hb⟩
  · rintro ⟨bytes, hfront, a, first, second, rfl, ha, hb⟩
    rw [List.append_assoc] at hfront
    have hfirst : read.run.run feed = _ := (hread feed a (second ++ left)).mpr ⟨first, hfront, ha⟩
    rw [hfirst]
    exact (hnext a { feed with arrived := second ++ left } b left).mpr ⟨second, rfl, hb⟩

/-- A read behind a test. -/
theorem Parses.guard (h : Parses read P) {p : Prop} [Decidable p] (error : ε) :
    Parses (if p then fail error else read) fun a bytes => ¬ p ∧ P a bytes := by
  split
  next hp =>
    intro feed a left
    exact ⟨fun hrun => (nomatch hrun), fun ⟨_, _, hnot, _⟩ => absurd hp hnot⟩
  next hp => exact h.congr fun a bytes => (and_iff_right hp).symm

/-- What an exact read gives it has accepted off the front of what arrived. -/
theorem Parses.of_run (h : Parses read P) (hexact : Exact read) {feed feed' : Feed} {a : α}
    (hrun : run feed read = (.ok a, feed')) :
    ∃ front, feed.arrived = front ++ feed'.arrived ∧ P a front := by
  obtain ⟨hflag, -⟩ := hexact.steady feed.arrived feed.closed a feed' hrun
  have hfeed : feed' = { feed with arrived := feed'.arrived } := congrArg (Feed.mk _) hflag
  rw [hfeed] at hrun
  exact (h feed a _).mp hrun

theorem Parses.ensures (h : Parses read P) (hexact : Exact read) :
    Ensures read fun a => ∃ bytes, P a bytes := by
  intro feed a feed' hrun
  obtain ⟨front, -, ha⟩ := h.of_run hexact hrun
  exact ⟨front, ha⟩

end Descriptions

/-- On closed input a read gives a value, or fails: there is nothing to wait for. -/
theorem Exact.closed_cases {read : Read ε α} (h : Exact read) (arrived : Bytes) :
    (∃ a left, run (.complete arrived) read = (.ok a, .complete left)) ∨
      ∃ error left, run (.complete arrived) read = (.error (.failed error), .complete left) := by
  induction h generalizing arrived with
  | pure a => exact .inl ⟨a, arrived, rfl⟩
  | fail error => exact .inr ⟨error, arrived, rfl⟩
  | bytes n f =>
    rw [run_orFail]
    by_cases hle : n ≤ arrived.length
    · have hexact : run (.complete arrived) (readExact n) =
          (.ok (arrived.take n), .complete (arrived.drop n)) := if_pos hle
      exact .inl ⟨_, _, by rw [hexact]⟩
    · have hshort : run (.complete arrived) (readExact n) =
          (.error (.failed .unexpectedEof), .complete []) := if_neg hle
      exact .inr ⟨_, _, by rw [hshort]; rfl⟩
  | @bind _ _ read next _ _ ihread ihnext =>
    rcases ihread arrived with ⟨a, middle, hfirst⟩ | ⟨error, left, hfirst⟩
    · have hbind : run (.complete arrived) (read >>= next) = run (.complete middle) (next a) :=
        run_bind_ok hfirst
      rw [hbind]
      exact ihnext a middle
    · exact .inr ⟨error, left, run_bind_error hfirst⟩

end HttpRelay.Feed
