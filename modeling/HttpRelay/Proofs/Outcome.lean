import HttpRelay.Transport.Feed

/-!
# Outcomes of fallible steps

How a sequence of fallible steps runs: the outcome of `Except` steps, and the outcome and state
of steps that also change a state. The reads and operations of the project are of the second form,
`ExceptT ε (StateM σ)`; the scans of texts, `StateT σ (Except ε)`, lose the state when they fail.

* `ok_bind`, `error_bind`: a value is handed on, a failure ends the sequence;
* `run_bind`, `run_pure`, `run_throw`: the same with a state, which a failure keeps;
* `run_bind_of_ok`, `run_bind_of_error`: the same with a state, which a failure loses;
* `Keeps`: operations that keep an invariant of the state, with a rule for each way to build them.
-/

namespace HttpRelay.Outcome

section Plain

variable {ε α β : Type}

@[simp] theorem ok_bind (a : α) (f : α → Except ε β) : (Except.ok a >>= f) = f a := rfl

@[simp] theorem error_bind (e : ε) (f : α → Except ε β) :
    ((Except.error e : Except ε α) >>= f) = .error e := rfl

@[simp] theorem pure_eq (a : α) : (pure a : Except ε α) = .ok a := rfl

@[simp] theorem throw_eq (e : ε) : (throw e : Except ε α) = .error e := rfl

@[simp] theorem map_ok (f : α → β) (a : α) : (f <$> (Except.ok a : Except ε α)) = .ok (f a) := rfl

@[simp] theorem map_error (f : α → β) (e : ε) :
    (f <$> (Except.error e : Except ε α)) = .error e := rfl

/-- A sequence gives a value if each of its steps does. -/
theorem bind_eq_ok {x : Except ε α} {f : α → Except ε β} {b : β} :
    (x >>= f) = .ok b ↔ ∃ a, x = .ok a ∧ f a = .ok b := by
  cases x <;> simp

/-- What is done with a value does not decide whether there is one. -/
theorem exists_map_eq_ok_iff (x : Except ε α) (f : α → β) :
    (∃ b, x.map f = .ok b) ↔ ∃ a, x = .ok a := by
  cases x <;> simp [Except.map]

/-- A halt that is not for want of bytes is none in a sequence either. -/
theorem error_ne_starved {halt : Halt ε}
    (h : (.error halt : Except (Halt ε) α) ≠ .error .starved) :
    (.error halt : Except (Halt ε) β) ≠ .error .starved := by
  rintro ⟨rfl⟩
  exact h rfl

end Plain

section Stateful

variable {ε σ α β : Type}

/-- The second of two steps runs on the state that the first one leaves, if there is a value. -/
theorem run_bind (op : ExceptT ε (StateM σ) α) (f : α → ExceptT ε (StateM σ) β) (s : σ) :
    (op >>= f).run.run s =
      match op.run.run s with
      | (.ok a, s') => (f a).run.run s'
      | (.error e, s') => (.error e, s') := by
  rw [ExceptT.run_bind, StateT.run_bind]
  rcases op.run.run s with ⟨error | a, s'⟩
  · rfl
  · rfl

@[simp] theorem run_pure (a : α) (s : σ) :
    (pure a : ExceptT ε (StateM σ) α).run.run s = (.ok a, s) := rfl

@[simp] theorem run_throw (e : ε) (s : σ) :
    (throw e : ExceptT ε (StateM σ) α).run.run s = (.error e, s) := rfl

@[simp] theorem run_get (s : σ) :
    (get : ExceptT ε (StateM σ) σ).run.run s = (.ok s, s) := rfl

@[simp] theorem run_modify (f : σ → σ) (s : σ) :
    (modify f : ExceptT ε (StateM σ) Unit).run.run s = (.ok (), f s) := rfl

/-- A step whose value is known runs on to the next one. -/
theorem run_bind_ok {op : ExceptT ε (StateM σ) α} {f : α → ExceptT ε (StateM σ) β} {s s' : σ}
    {a : α} (hop : op.run.run s = (.ok a, s')) :
    (op >>= f).run.run s = (f a).run.run s' := by
  rw [run_bind, hop]

/-- A step that fails is the last one. -/
theorem run_bind_error {op : ExceptT ε (StateM σ) α} {f : α → ExceptT ε (StateM σ) β}
    {s s' : σ} {e : ε} (hop : op.run.run s = (.error e, s')) :
    (op >>= f).run.run s = (.error e, s') := by
  rw [run_bind, hop]

/-- The rescue of a step runs on the state that the failure leaves. -/
theorem run_tryCatch (op : ExceptT ε (StateM σ) α) (rescue : ε → ExceptT ε (StateM σ) α) (s : σ) :
    (tryCatch op rescue).run.run s =
      match op.run.run s with
      | (.ok a, s') => (.ok a, s')
      | (.error e, s') => (rescue e).run.run s' := by
  rw [ExceptT.run_tryCatch, StateT.run_bind]
  rcases op.run.run s with ⟨error | a, s'⟩
  · rfl
  · rfl

/-- A step that does not fail needs no rescue. -/
theorem run_tryCatch_ok {op : ExceptT ε (StateM σ) α} {rescue : ε → ExceptT ε (StateM σ) α}
    {s s' : σ} {a : α} (hop : op.run.run s = (.ok a, s')) :
    (tryCatch op rescue).run.run s = (.ok a, s') := by
  rw [run_tryCatch, hop]

/-- A step that fails is rescued. -/
theorem run_tryCatch_error {op : ExceptT ε (StateM σ) α} {rescue : ε → ExceptT ε (StateM σ) α}
    {s s' : σ} {e : ε} (hop : op.run.run s = (.error e, s')) :
    (tryCatch op rescue).run.run s = (rescue e).run.run s' := by
  rw [run_tryCatch, hop]

end Stateful

section Scans

variable {ε σ α β : Type} {scan : StateT σ (Except ε) α} {next : α → StateT σ (Except ε) β}
  {s s' : σ}

/-- A scan whose outcome is known runs on to the next one. -/
theorem run_bind_of_ok {a : α} (h : scan.run s = .ok (a, s')) :
    (scan >>= next).run s = (next a).run s' := by
  rw [StateT.run_bind, h]
  rfl

/-- A scan that fails is the last one. -/
theorem run_bind_of_error {e : ε} (h : scan.run s = .error e) :
    (scan >>= next).run s = .error e := by
  rw [StateT.run_bind, h]
  rfl

end Scans

section Invariants

variable {ε σ α β : Type} {inv : σ → Prop} {P : α → Prop} {Q : β → Prop}
  {op : ExceptT ε (StateM σ) α}

/-- An operation that keeps an invariant of the state, whatever it comes to, and whose values have
a property. -/
def Keeps (inv : σ → Prop) (op : ExceptT ε (StateM σ) α) (P : α → Prop) : Prop :=
  ∀ s, inv s → inv (op.run.run s).2 ∧ ∀ a, (op.run.run s).1 = .ok a → P a

theorem keeps_pure {a : α} (h : P a) : Keeps inv (pure a : ExceptT ε (StateM σ) α) P :=
  fun _ hs => ⟨hs, fun _ hvalue => Except.ok.inj hvalue ▸ h⟩

theorem keeps_throw (e : ε) (P : α → Prop) : Keeps inv (throw e : ExceptT ε (StateM σ) α) P :=
  fun _ hs => ⟨hs, fun _ hvalue => nomatch hvalue⟩

theorem keeps_modify {f : σ → σ} (h : ∀ s, inv s → inv (f s)) :
    Keeps inv (modify f : ExceptT ε (StateM σ) Unit) fun _ => True :=
  fun s hs => ⟨h s hs, fun _ _ => trivial⟩

/-- What is known of the value of the first of two steps is known in the second. -/
theorem Keeps.bind {next : α → ExceptT ε (StateM σ) β} (hop : Keeps inv op P)
    (hnext : ∀ a, P a → Keeps inv (next a) Q) : Keeps inv (op >>= next) Q := by
  intro s hs
  obtain ⟨hbehind, hvalue⟩ := hop s hs
  rcases hrun : op.run.run s with ⟨error | a, s'⟩ <;> rw [hrun] at hbehind hvalue
  · rw [run_bind_error hrun]
    exact ⟨hbehind, fun _ h => nomatch h⟩
  · rw [run_bind_ok hrun]
    exact hnext a (hvalue a rfl) s' hbehind

theorem Keeps.mono {P' : α → Prop} (hop : Keeps inv op P) (h : ∀ a, P a → P' a) :
    Keeps inv op P' :=
  fun s hs => ⟨(hop s hs).1, fun a hvalue => h a ((hop s hs).2 a hvalue)⟩

/-- The invariant holds of the state that a step looks at. -/
theorem keeps_get_bind {next : σ → ExceptT ε (StateM σ) α}
    (h : ∀ s, inv s → Keeps inv (next s) P) : Keeps inv (get >>= next) P := by
  intro s hs
  rw [run_bind_ok (run_get s)]
  exact h s hs s hs

theorem Keeps.tryCatch {rescue : ε → ExceptT ε (StateM σ) α} (hop : Keeps inv op P)
    (hrescue : ∀ e, Keeps inv (rescue e) P) :
    Keeps inv (MonadExcept.tryCatch op rescue) P := by
  intro s hs
  obtain ⟨hbehind, hvalue⟩ := hop s hs
  rcases hrun : op.run.run s with ⟨error | a, s'⟩ <;> rw [hrun] at hbehind hvalue
  · rw [run_tryCatch_error hrun]
    exact hrescue error s' hbehind
  · rw [run_tryCatch_ok hrun]
    exact ⟨hbehind, fun b h => hvalue b h⟩

end Invariants

end HttpRelay.Outcome
