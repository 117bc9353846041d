import HttpRelay.Proofs.Outcome
import HttpRelay.Transport.Feed

/-!
# Reads that do not depend on timing

A read of a connection that does not starve is decided by the bytes that it takes, whatever else
has arrived by then. So it does not matter how the transport cuts a byte stream into arrivals.

* `Feed.Exact`: reads that are built of exact reads;
* `Feed.Incremental`: more bytes change neither the answer nor what is taken;
* `Feed.Steady`: neither does the end of the input change a value that was read;
* `Exact.incremental`, `Exact.steady`: both hold of what is built of exact reads;
* `Feed.Ensures`, `Feed.FailsAs`: what is known of the values and of the failures of a read;
* `Incremental.starved_of_part`: a read that takes some bytes starves on a part of them.
-/

namespace HttpRelay.Feed

variable {ε ε' α β : Type}

/-- Reads that are built of exact reads. -/
inductive Exact {ε : Type} : {α : Type} → Read ε α → Prop
  | pure {α : Type} (a : α) : Exact (Pure.pure a)
  | fail {α : Type} (error : ε) : Exact (Feed.fail error : Read ε α)
  | bytes (n : Nat) (f : IoFailure → ε) : Exact (orFail (readExact n) f)
  | bind {α β : Type} {read : Read ε α} {next : α → Read ε β} :
      Exact read → (∀ a, Exact (next a)) → Exact (read >>= next)

/-- A read that fails at once does not come to what is behind it. -/
theorem Exact.fail_bind (error : ε) (next : α → Read ε β) :
    Exact ((Feed.fail error : Read ε α) >>= next) := by
  have hfail : ((Feed.fail error : Read ε α) >>= next) = Feed.fail error := rfl
  rw [hfail]
  exact .fail error

/-- A read whose answer on open input stays the same when more bytes arrive. -/
def Incremental (read : Read ε α) : Prop :=
  ∀ (arrived more : Bytes) (answer : Except (Halt ε) α) (feed : Feed),
    run { arrived } read = (answer, feed) → answer ≠ .error .starved →
      feed.closed = false ∧
        run { arrived := arrived ++ more } read = (answer, { arrived := feed.arrived ++ more })

/-- A read that takes nothing is incremental. -/
theorem incremental_pure (a : α) : Incremental (pure a : Read ε α) := by
  intro arrived more answer feed hrun _
  obtain ⟨rfl, rfl⟩ := Prod.mk.inj hrun
  exact ⟨rfl, rfl⟩

/-- A read that only fails is incremental. -/
theorem incremental_fail (error : ε) : Incremental (fail error : Read ε α) := by
  intro arrived more answer feed hrun _
  obtain ⟨rfl, rfl⟩ := Prod.mk.inj hrun
  exact ⟨rfl, rfl⟩

/-- Two incremental reads in a row are incremental. -/
theorem Incremental.bind {read : Read ε α} {next : α → Read ε β} (hread : Incremental read)
    (hnext : ∀ a, Incremental (next a)) : Incremental (read >>= next) := by
  intro arrived more answer feed hrun hanswer
  rw [run, Outcome.run_bind] at hrun
  rw [run, Outcome.run_bind]
  rcases hfirst : run { arrived } read with ⟨first, middle⟩
  rw [run] at hfirst
  rw [hfirst] at hrun
  cases first with
  | error halt =>
    -- the first read fails, and its failure is that of both
    obtain ⟨rfl, rfl⟩ := Prod.mk.inj hrun
    obtain ⟨hopen, hmore⟩ :=
      hread arrived more _ _ hfirst (Outcome.error_ne_starved hanswer)
    rw [run] at hmore
    rw [hmore]
    exact ⟨hopen, rfl⟩
  | ok a =>
    -- the second read finds what the first one left, with the further bytes behind it
    obtain ⟨hopen, hmore⟩ := hread arrived more _ _ hfirst (by simp)
    obtain ⟨left, closed⟩ := middle
    obtain rfl : closed = false := hopen
    obtain ⟨hopen', hmore'⟩ := hnext a left more answer feed hrun hanswer
    rw [run] at hmore hmore'
    rw [hmore]
    exact ⟨hopen', hmore'⟩

/-- An exact read is incremental. -/
theorem incremental_readExact (n : Nat) : Incremental (readExact n) := by
  intro arrived more answer feed hrun hanswer
  change (if n ≤ arrived.length then _ else _) = _ at hrun
  split at hrun
  next hle =>
    obtain ⟨rfl, rfl⟩ := Prod.mk.inj hrun
    refine ⟨rfl, ?_⟩
    change (if n ≤ (arrived ++ more).length then _ else _) = _
    rw [if_pos (by rw [List.length_append]; omega)]
    simp [List.take_append_of_le_length hle, List.drop_append_of_le_length hle]
  next =>
    obtain ⟨rfl, rfl⟩ := Prod.mk.inj hrun
    exact absurd rfl hanswer

/-- The run of a read with its failures put into another error type. -/
theorem run_orFail (read : Read ε α) (f : ε → ε') (feed : Feed) :
    run feed (orFail read f) =
      match run feed read with
      | (.ok a, feed') => (.ok a, feed')
      | (.error halt, feed') => (.error (halt.map f), feed') := by
  rw [run, orFail, ExceptT.run_mk, StateT.run_bind]
  rcases hrun : run feed read with ⟨halt | a, feed'⟩
  · rw [run] at hrun
    rw [hrun]
    rfl
  · rw [run] at hrun
    rw [hrun]
    rfl

/-- An exact read that gives a value has taken that many bytes off the front. -/
theorem bytes_ok {n : Nat} {f : IoFailure → ε} {feed feed' : Feed} {taken : Bytes}
    (hrun : run feed (orFail (readExact n) f) = (.ok taken, feed')) :
    n ≤ feed.arrived.length ∧ taken = feed.arrived.take n ∧
      feed' = { feed with arrived := feed.arrived.drop n } := by
  rw [run_orFail] at hrun
  by_cases hle : n ≤ feed.arrived.length
  · have hexact : run feed (readExact n) =
        (.ok (feed.arrived.take n), { feed with arrived := feed.arrived.drop n }) := if_pos hle
    rw [hexact] at hrun
    obtain ⟨hvalue, rfl⟩ := Prod.mk.inj hrun
    exact ⟨hle, (Except.ok.inj hvalue).symm, rfl⟩
  · have hshort : run feed (readExact n) =
        (.error (if feed.closed then .failed .unexpectedEof else .starved),
          { feed with arrived := [] }) := if_neg hle
    rw [hshort] at hrun
    cases (Prod.mk.inj hrun).1

/-- Other errors change nothing. -/
theorem Incremental.orFail {read : Read ε α} (h : Incremental read) (f : ε → ε') :
    Incremental (orFail read f) := by
  intro arrived more answer feed hrun hanswer
  rw [run_orFail] at hrun ⊢
  rcases hfirst : run { arrived } read with ⟨halt | a, feed'⟩
  · rw [hfirst] at hrun
    obtain ⟨rfl, rfl⟩ := Prod.mk.inj hrun
    have hhalt : (.error halt : Except (Halt ε) α) ≠ .error .starved := by
      rintro ⟨rfl⟩
      exact hanswer rfl
    obtain ⟨hopen, hmore⟩ := h arrived more _ _ hfirst hhalt
    rw [hmore]
    exact ⟨hopen, rfl⟩
  · rw [hfirst] at hrun
    obtain ⟨rfl, rfl⟩ := Prod.mk.inj hrun
    obtain ⟨hopen, hmore⟩ := h arrived more _ _ hfirst (by simp)
    rw [hmore]
    exact ⟨hopen, rfl⟩

/-- What is built of exact reads is incremental. -/
theorem Exact.incremental {read : Read ε α} (h : Exact read) : Incremental read := by
  induction h with
  | pure a => exact incremental_pure a
  | fail error => exact incremental_fail error
  | bytes n f => exact (incremental_readExact n).orFail f
  | bind _ _ ihread ihnext => exact ihread.bind ihnext

/-- A read whose value stays the same when more bytes arrive or the input ends behind them. -/
def Steady (read : Read ε α) : Prop :=
  ∀ (arrived : Bytes) (closed : Bool) (a : α) (feed : Feed),
    run { arrived, closed } read = (.ok a, feed) →
      feed.closed = closed ∧ ∀ (more : Bytes) (closed' : Bool),
        run { arrived := arrived ++ more, closed := closed' } read =
          (.ok a, { arrived := feed.arrived ++ more, closed := closed' })

/-- The exact read of some bytes is steady. -/
theorem steady_bytes (n : Nat) (f : IoFailure → ε) : Steady (orFail (readExact n) f) := by
  intro arrived closed taken feed hrun
  obtain ⟨hle, rfl, rfl⟩ := bytes_ok hrun
  dsimp only at hle
  refine ⟨rfl, fun more closed' => ?_⟩
  have hexact : run { arrived := arrived ++ more, closed := closed' } (readExact n) =
      (.ok (arrived.take n), { arrived := arrived.drop n ++ more, closed := closed' }) := by
    change (if n ≤ (arrived ++ more).length then _ else _) = _
    rw [if_pos (by rw [List.length_append]; omega)]
    simp [List.take_append_of_le_length hle, List.drop_append_of_le_length hle]
  rw [run_orFail, hexact]

/-- What is built of exact reads is steady. -/
theorem Exact.steady {read : Read ε α} (h : Exact read) : Steady read := by
  induction h with
  | pure a =>
    intro arrived closed value feed hrun
    obtain ⟨hvalue, rfl⟩ := Prod.mk.inj hrun
    obtain rfl := Except.ok.inj hvalue
    exact ⟨rfl, fun more closed' => rfl⟩
  | fail error =>
    intro arrived closed value feed hrun
    cases (Prod.mk.inj hrun).1
  | bytes n f => exact steady_bytes n f
  | @bind _ _ read next _ _ ihread ihnext =>
    intro arrived closed value feed hrun
    rw [run, Outcome.run_bind] at hrun
    rcases hfirst : read.run.run { arrived, closed } with ⟨halt | a, middle⟩
    · rw [hfirst] at hrun
      cases (Prod.mk.inj hrun).1
    · rw [hfirst] at hrun
      -- the second read finds what the first one left, and the flag as it was
      obtain ⟨hkept, hmore⟩ := ihread arrived closed a middle hfirst
      obtain ⟨left, _⟩ := middle
      obtain rfl := hkept
      obtain ⟨hkept', hmore'⟩ := ihnext a left _ value feed hrun
      refine ⟨hkept', fun more closed' => ?_⟩
      have hfirst' := hmore more closed'
      rw [run] at hfirst'
      rw [run, Outcome.run_bind_ok hfirst']
      exact hmore' more closed'

/-- A read whose values all have a property. -/
def Ensures (read : Read ε α) (P : α → Prop) : Prop :=
  ∀ (feed : Feed) (a : α) (feed' : Feed), run feed read = (.ok a, feed') → P a

theorem ensures_fail (error : ε) (P : α → Prop) : Ensures (fail error : Read ε α) P := by
  intro feed a feed' hrun
  cases (Prod.mk.inj hrun).1

theorem ensures_pure {P : α → Prop} {a : α} (h : P a) : Ensures (pure a : Read ε α) P := by
  intro feed value feed' hrun
  obtain rfl := Except.ok.inj (Prod.mk.inj hrun).1
  exact h

/-- What the first of two reads ensures is known of its value in the second. -/
theorem Ensures.bind {read : Read ε α} {next : α → Read ε β} {P : α → Prop} {Q : β → Prop}
    (hread : Ensures read P) (hnext : ∀ a, P a → Ensures (next a) Q) :
    Ensures (read >>= next) Q := by
  intro feed b feed' hrun
  rw [run, Outcome.run_bind] at hrun
  rcases hfirst : read.run.run feed with ⟨halt | a, middle⟩
  · rw [hfirst] at hrun
    cases (Prod.mk.inj hrun).1
  · rw [hfirst] at hrun
    exact hnext a (hread feed a middle hfirst) middle b feed' hrun

theorem ensures_true (read : Read ε α) : Ensures read fun _ => True :=
  fun _ _ _ _ => trivial

/-- A read whose failures all have a property. -/
def FailsAs (read : Read ε α) (P : ε → Prop) : Prop :=
  ∀ (feed : Feed) (error : ε) (feed' : Feed), run feed read = (.error (.failed error), feed') →
    P error

theorem failsAs_fail {P : ε → Prop} {error : ε} (h : P error) :
    FailsAs (fail error : Read ε α) P := by
  intro feed error' feed' hrun
  obtain rfl := Halt.failed.inj (Except.error.inj (Prod.mk.inj hrun).1)
  exact h

/-- A read that fails at once fails as that, whatever is behind it. -/
theorem failsAs_fail_bind {P : ε → Prop} {error : ε} (h : P error) (next : α → Read ε β) :
    FailsAs ((Feed.fail error : Read ε α) >>= next) P :=
  failsAs_fail h

theorem failsAs_pure (a : α) (P : ε → Prop) : FailsAs (pure a : Read ε α) P := by
  intro feed error feed' hrun
  cases (Prod.mk.inj hrun).1

/-- Two reads in a row fail as one of them does. -/
theorem FailsAs.bind {read : Read ε α} {next : α → Read ε β} {P : ε → Prop}
    (hread : FailsAs read P) (hnext : ∀ a, FailsAs (next a) P) : FailsAs (read >>= next) P := by
  intro feed error feed' hrun
  rw [run, Outcome.run_bind] at hrun
  rcases hfirst : read.run.run feed with ⟨halt | a, middle⟩
  · rw [hfirst] at hrun
    obtain ⟨hhalt, rfl⟩ := Prod.mk.inj hrun
    obtain rfl := Except.error.inj hhalt
    exact hread feed error middle hfirst
  · rw [hfirst] at hrun
    exact hnext a middle error feed' hrun

/-- An exact read fails only where its input ends. -/
theorem failsAs_bytes {P : ε → Prop} {f : IoFailure → ε} (h : P (f .unexpectedEof)) (n : Nat) :
    FailsAs (orFail (readExact n) f) P := by
  intro feed error feed' hrun
  rw [run_orFail] at hrun
  by_cases hle : n ≤ feed.arrived.length
  · have hexact : run feed (readExact n) =
        (.ok (feed.arrived.take n), { feed with arrived := feed.arrived.drop n }) := if_pos hle
    rw [hexact] at hrun
    cases (Prod.mk.inj hrun).1
  · have hshort : run feed (readExact n) =
        (.error (if feed.closed then .failed .unexpectedEof else .starved),
          { feed with arrived := [] }) := if_neg hle
    rw [hshort] at hrun
    cases hclosed : feed.closed <;> rw [hclosed] at hrun
    · cases (Prod.mk.inj hrun).1
    · obtain rfl := Halt.failed.inj (Except.error.inj (Prod.mk.inj hrun).1)
      exact h

/-- What a read fails as, it fails as anything weaker. -/
theorem FailsAs.mono {read : Read ε α} {P Q : ε → Prop} (h : FailsAs read P)
    (hweaker : ∀ error, P error → Q error) : FailsAs read Q :=
  fun feed error feed' hrun => hweaker error (h feed error feed' hrun)

/-- A read that takes all of some bytes starves when only a part of them has arrived. -/
theorem Incremental.starved_of_part {read : Read ε α} (h : Incremental read)
    {arrived missing : Bytes} {a : α} {closed : Bool}
    (hwhole : run { arrived := arrived ++ missing } read = (.ok a, { arrived := [], closed }))
    (hmissing : missing ≠ []) : (run { arrived } read).1 = .error .starved := by
  -- otherwise the missing bytes would be left behind the whole of them, where nothing is left
  refine Classical.byContradiction fun hanswer => ?_
  obtain ⟨-, hmore⟩ := h arrived missing _ _ rfl hanswer
  rw [hwhole] at hmore
  have hleft := congrArg (fun result => result.2.arrived) hmore
  exact hmissing (List.append_eq_nil_iff.mp hleft.symm).2

end HttpRelay.Feed
