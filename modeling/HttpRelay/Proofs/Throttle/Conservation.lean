import HttpRelay.Proofs.Throttle.Isolation
import HttpRelay.Throttle.Pacing
import Mathlib.Algebra.BigOperators.Group.List.Basic
import Mathlib.Algebra.BigOperators.Field
import Mathlib.Algebra.Order.BigOperators.Group.Finset
import Mathlib.Algebra.Order.BigOperators.Group.List
import Mathlib.Tactic.FieldSimp
import Mathlib.Tactic.Linarith

/-!
# Conservation of the budget

A tick divides its budget twice, among the peers and among the requests of each peer, rounds every
share down and hands out the fraction. In exact arithmetic nothing is made on the way and nothing
is lost: what is granted and what is carried on are the budget and what was carried in, but for the
bytes that nobody wanted.

* `grantAmong_eq`: a grant over a budget is the whole part of its exact share, and carries the rest;
* `sum_share`: the shares of all requests are the budget of the tick;
* `Round.granted_add_left_add_cut`: where the budget of one tick goes;
* `Round.grantedTo_le`: what a peer gets of it;
* `grantedOver_add_outstanding_add_cutOver`: where the budgets of a run go, tick by tick;
* `planTick_within_budget`: no run of a scheduler exceeds its budgets.
-/

namespace HttpRelay.Throttle

section Shares

variable {requests : List (Request ℚ)} {r : Request ℚ} {budget : Nat} {elapsed : ℚ}

/-- The part of the budget of a tick that falls to a request of a peer. -/
def share (budget : Nat) (elapsed : ℚ) (requests : List (Request ℚ)) (peer : Peer) : ℚ :=
  budget * elapsed / (peersOf requests).length / siblings requests peer

/-- What a request may have, before anything is rounded or cut: its share and what it brought. -/
def exactShare (budget : Nat) (elapsed : ℚ) (requests : List (Request ℚ)) (r : Request ℚ) : ℚ :=
  share budget elapsed requests r.peer + r.carry

theorem length_peersOf_pos (hr : r ∈ requests) : 0 < (peersOf requests).length :=
  List.length_pos_of_mem (mem_peersOf.mpr ⟨r, hr, rfl⟩)

theorem siblings_pos (hr : r ∈ requests) : 0 < siblings requests r.peer :=
  List.countP_pos_iff.mpr ⟨r, hr, by simp⟩

theorem siblings_eq_count (requests : List (Request ℚ)) (peer : Peer) :
    siblings requests peer = (requests.map Request.peer).count peer := by
  rw [siblings, List.count, List.countP_map]
  exact List.countP_congr fun r _ => by simp

theorem length_peersOf_eq_card (requests : List (Request ℚ)) :
    (peersOf requests).length = (requests.map Request.peer).toFinset.card := by
  rw [← List.toFinset_card_of_nodup (nodup_peersOf requests)]
  congr 1
  ext peer
  simp [mem_peersOf]

/-- The shares of the requests of one peer are the budget over the number of peers. -/
theorem siblings_mul_share (hr : r ∈ requests) :
    siblings requests r.peer * share budget elapsed requests r.peer =
      budget * elapsed / (peersOf requests).length := by
  have hsiblings : (siblings requests r.peer : ℚ) ≠ 0 := by exact_mod_cast (siblings_pos hr).ne'
  rw [share, mul_div_cancel₀ _ hsiblings]

/-- The shares of all requests are the budget of the tick. -/
theorem sum_share (hrequests : requests ≠ []) :
    (requests.map fun r => share budget elapsed requests r.peer).sum = budget * elapsed := by
  obtain ⟨first, hfirst⟩ := List.exists_mem_of_ne_nil _ hrequests
  have hpeers : ((peersOf requests).length : ℚ) ≠ 0 := by
    exact_mod_cast (length_peersOf_pos hfirst).ne'
  have hmap : (requests.map fun r => share budget elapsed requests r.peer) =
      (requests.map Request.peer).map (share budget elapsed requests) := by
    rw [List.map_map, Function.comp_def]
  -- gathered by peer, each peer adds the same part of the budget, as often as there are peers
  rw [hmap, Finset.sum_list_map_count]
  calc ∑ peer ∈ (requests.map Request.peer).toFinset,
        (requests.map Request.peer).count peer • share budget elapsed requests peer
      = ∑ _peer ∈ (requests.map Request.peer).toFinset,
          budget * elapsed / ((peersOf requests).length : ℚ) := by
        refine Finset.sum_congr rfl fun peer hpeer => ?_
        obtain ⟨r, hr, rfl⟩ := List.mem_map.mp (List.mem_toFinset.mp hpeer)
        rw [nsmul_eq_mul, ← siblings_eq_count, siblings_mul_share hr]
    _ = budget * elapsed := by
        rw [Finset.sum_const, nsmul_eq_mul, ← length_peersOf_eq_card, mul_div_cancel₀ _ hpeers]

theorem share_pos (hbudget : 0 < budget) (helapsed : 0 < elapsed) (hr : r ∈ requests) :
    0 < share budget elapsed requests r.peer := by
  have hpeers := length_peersOf_pos hr
  have hsiblings := siblings_pos hr
  rw [share]
  positivity

/-- A grant in exact arithmetic, in whole bytes and the fraction that is left. -/
theorem grant_eq (exact : ℚ) (remaining : Nat) :
    grant exact remaining = .bytes (min ⌊exact⌋ remaining).toNat (Int.fract exact) := by
  have hleast : (Quantity.least (Quantity.floor exact) (Quantity.ofNat remaining) : ℚ) =
      ((min ⌊exact⌋ remaining : ℤ) : ℚ) := (Int.cast_min ..).symm
  rw [grant, hleast]
  refine congrArg₂ _ ?_ rfl
  exact congrArg Int.toNat (Int.floor_intCast (R := ℚ) _)

/-- A request is granted the whole bytes of its exact share, at most what it wants, and carries
the fraction. -/
theorem grantAmong_eq (hbudget : 0 < budget) (helapsed : 0 < elapsed) (hr : r ∈ requests) :
    grantAmong budget elapsed requests r =
      .bytes (min ⌊exactShare budget elapsed requests r⌋ r.remaining).toNat
        (Int.fract (exactShare budget elapsed requests r)) := by
  have hpeers := length_peersOf_pos hr
  have hpositive : ¬(budget = 0 ∨ Quantity.isNonpositive
      (Quantity.ofNat budget * elapsed / Quantity.ofNat (peersOf requests).length : ℚ) = true) := by
    rw [not_or]
    refine ⟨hbudget.ne', ?_⟩
    have : (0 : ℚ) < budget * elapsed / (peersOf requests).length := by positivity
    exact fun h => (of_decide_eq_true h).not_gt this
  exact (if_neg hpositive).trans (grant_eq _ _)

end Shares

namespace Allowance

/-- Bytes that a grant with a limit gives. -/
def count : Allowance α → Nat
  | bytes count _ => count
  | unlimited => 0

/-- The fraction that a grant leaves, which is none behind a grant without limit. -/
def carry : Allowance ℚ → ℚ
  | bytes _ carry => carry
  | unlimited => 0

end Allowance

/-- A drain leaves every budget as it is. -/
theorem Scheduler.budget?_drain (s : Scheduler α) (slot : Nat) (id : RuleSetId) :
    (s.drain slot).2.budget? id = s.budget? id := by
  change ((s.ruleSets.modify slot RuleSet.drained)[id.slot]?).map RuleSet.budget = _
  rw [List.getElem?_modify, Option.map_eq_map, Option.map_map]
  refine congrArg (Option.map · _) (funext fun ruleSet => ?_)
  rw [Function.comp_apply]
  split <;> rfl

/-- What a stream wants of a tick. -/
structure Wish (σ : Type) where
  stream : σ
  peer : Peer
  wanted : Nat
  deriving DecidableEq, Repr

variable {σ : Type}

/-- The request that a stream makes of its wish, with the fraction it carries. -/
def Wish.request (w : Wish σ) (p : Pacing ℚ) : Request ℚ :=
  { peer := w.peer, remaining := w.wanted, carry := p.carry }

/-- The bookkeeping of a stream whose wish is parked. -/
def Wish.parked (w : Wish σ) (p : Pacing ℚ) : Pacing ℚ := { p with requested := w.wanted }

/-- What a direction parks for a wish is the request of the wish. -/
theorem Wish.park_eq (w : Wish σ) {p : Pacing ℚ} {s s' : Scheduler ℚ} {ticket : Nat}
    (h : s.enqueue? p.ruleSet (w.request p) = some (ticket, s')) :
    p.park w.peer w.wanted s = (some ticket, w.parked p, s') := by
  rw [Wish.request] at h
  rw [Pacing.park, h, Wish.parked]

/-- A tick of a rule set with a budget, and the wishes it finds, at most one of each stream. -/
structure Round (σ : Type) where
  budget : Nat
  elapsed : ℚ
  wishes : List (Wish σ)
  budget_pos : 0 < budget
  elapsed_pos : 0 < elapsed
  nodup : (wishes.map Wish.stream).Nodup

namespace Round

variable (r : Round σ) (p : σ → Pacing ℚ)

/-- The requests that wait for a tick. -/
def requests : List (Request ℚ) := r.wishes.map fun w => w.request (p w.stream)

/-- What the tick grants, in the order of the wishes. -/
def grants : List (Allowance ℚ) := planTick r.budget r.elapsed (r.requests p)

/-- Each wish with its grant. -/
def answers : List (Wish σ × Allowance ℚ) := r.wishes.zip (r.grants p)

/-- The streams behind a tick: each one that had a wish takes its grant. -/
def settle [DecidableEq σ] (s : σ) : Pacing ℚ :=
  match (r.answers p).find? (·.1.stream = s) with
  | some (w, grant) => (w.parked (p s)).apply grant
  | none => p s

/-- What the tick may grant. -/
def allowed : ℚ := r.budget * r.elapsed

theorem allowed_pos : 0 < r.allowed :=
  mul_pos (Nat.cast_pos.mpr r.budget_pos) r.elapsed_pos

/-- Bytes granted to a peer. -/
def grantedTo (peer : Peer) : Nat :=
  (((r.answers p).filter (·.1.peer = peer)).map (·.2.count)).sum

/-- The fractions that the requests of a peer carry in. -/
def broughtBy (peer : Peer) : ℚ :=
  ((r.wishes.filter (·.peer = peer)).map fun w => (p w.stream).carry).sum

/-- Bytes granted in all. -/
def granted : Nat := ((r.answers p).map (·.2.count)).sum

/-- The fractions that the requests carry in. -/
def brought : ℚ := (r.wishes.map fun w => (p w.stream).carry).sum

/-- The fractions that the grants hand out. -/
def left : ℚ := ((r.answers p).map (·.2.carry)).sum

/-- No grant is cut by what its request wants. -/
def Uncut : Prop :=
  ∀ q ∈ r.requests p, ⌊exactShare r.budget r.elapsed (r.requests p) q⌋ ≤ q.remaining

instance : Decidable (r.Uncut p) :=
  inferInstanceAs (Decidable (∀ q ∈ r.requests p,
    ⌊exactShare r.budget r.elapsed (r.requests p) q⌋ ≤ q.remaining))

/-- The tick that a scheduler makes of a queue with these requests. -/
theorem tickSlot_eq {s : Scheduler ℚ} {slot : Nat} (hbudget : s.budget? ⟨slot⟩ = some r.budget)
    (hparked : (s.parkedAt slot).map Parked.request = r.requests p) :
    (s.tickSlot r.elapsed slot).1 =
      ((s.parkedAt slot).map Parked.ticket).zip (r.grants p) := by
  change (s.drain slot).2.answers slot r.elapsed (s.parkedAt slot) = _
  rw [Scheduler.answers, Scheduler.budget?_drain, hbudget, hparked]
  rfl

/-- What a wish is granted. -/
def grantTo (w : Wish σ) : Allowance ℚ :=
  grantAmong r.budget r.elapsed (r.requests p) (w.request (p w.stream))

theorem grants_eq : r.grants p = r.wishes.map (r.grantTo p) := by
  rw [grants, planTick_eq_map]
  exact List.map_map

theorem answers_eq : r.answers p = r.wishes.map fun w => (w, r.grantTo p w) := by
  rw [answers, grants_eq]
  simpa using List.zip_map' (l := r.wishes) (f := id) (g := r.grantTo p)

/-- What a wish may have, before anything is rounded or cut. -/
def exactFor (w : Wish σ) : ℚ :=
  exactShare r.budget r.elapsed (r.requests p) (w.request (p w.stream))

/-- The bytes of an exact share that its wish does not want. -/
def cutFrom (w : Wish σ) : Nat := ⌊r.exactFor p w⌋.toNat - w.wanted

/-- The bytes that nobody is granted, since their wishes want less. -/
def cut : Nat := (r.wishes.map (r.cutFrom p)).sum

variable {r} {w : Wish σ}

theorem request_mem (hw : w ∈ r.wishes) : w.request (p w.stream) ∈ r.requests p :=
  List.mem_map_of_mem hw

theorem grantTo_eq (hw : w ∈ r.wishes) :
    r.grantTo p w =
      .bytes (min ⌊r.exactFor p w⌋ w.wanted).toNat (Int.fract (r.exactFor p w)) :=
  grantAmong_eq r.budget_pos r.elapsed_pos (request_mem p hw)

/-- A stream takes the grant of its wish. -/
theorem settle_of_mem [DecidableEq σ] (hw : w ∈ r.wishes) :
    r.settle p w.stream = (w.parked (p w.stream)).apply (r.grantTo p w) := by
  have hfind : (r.answers p).find? (·.1.stream = w.stream) = some (w, r.grantTo p w) := by
    obtain ⟨found, hfound⟩ : ∃ found, r.wishes.find? (·.stream = w.stream) = some found :=
      Option.isSome_iff_exists.mp (List.find?_isSome.mpr ⟨w, hw, by simp⟩)
    -- the wish found is of the same stream, and no stream has two
    have hstream : found.stream = w.stream := by simpa using List.find?_some hfound
    have hsame := List.inj_on_of_nodup_map r.nodup (List.mem_of_find?_eq_some hfound) hw hstream
    rw [answers_eq, List.find?_map, Option.map_eq_some_iff]
    exact ⟨w, hsame ▸ hfound, rfl⟩
  rw [settle, hfind]

/-- A stream without a wish keeps what it has. -/
theorem settle_of_not_mem [DecidableEq σ] {s : σ} (hs : s ∉ r.wishes.map Wish.stream) :
    r.settle p s = p s := by
  have hfind : (r.answers p).find? (·.1.stream = s) = none := by
    rw [answers_eq, List.find?_map, Option.map_eq_none_iff, List.find?_eq_none]
    intro w hw hstream
    exact hs (List.mem_map.mpr ⟨w, hw, of_decide_eq_true hstream⟩)
  rw [settle, hfind]

/-- A fraction is less than a byte, before a tick and behind it. -/
theorem carry_settle [DecidableEq σ] (hcarry : ∀ s, 0 ≤ (p s).carry ∧ (p s).carry < 1) (s : σ) :
    0 ≤ (r.settle p s).carry ∧ (r.settle p s).carry < 1 := by
  by_cases hs : s ∈ r.wishes.map Wish.stream
  · obtain ⟨w, hw, rfl⟩ := List.mem_map.mp hs
    rw [settle_of_mem p hw, grantTo_eq p hw]
    exact ⟨Int.fract_nonneg _, Int.fract_lt_one _⟩
  · rw [settle_of_not_mem p hs]
    exact hcarry s

theorem exactFor_nonneg (hcarry : ∀ s, 0 ≤ (p s).carry) (hw : w ∈ r.wishes) :
    0 ≤ r.exactFor p w :=
  add_nonneg (share_pos r.budget_pos r.elapsed_pos (request_mem p hw)).le (hcarry _)

theorem carry_grantTo (hw : w ∈ r.wishes) :
    (r.grantTo p w).carry = Int.fract (r.exactFor p w) := by
  rw [grantTo_eq p hw, Allowance.carry]

/-- What a wish may have is granted, carried on, or cut off as more than is wanted. -/
theorem count_add_carry_add_cutFrom (hcarry : ∀ s, 0 ≤ (p s).carry) (hw : w ∈ r.wishes) :
    ((r.grantTo p w).count : ℚ) + (r.grantTo p w).carry + r.cutFrom p w = r.exactFor p w := by
  have hfloor : 0 ≤ ⌊r.exactFor p w⌋ := Int.floor_nonneg.mpr (exactFor_nonneg p hcarry hw)
  have hwhole : (((r.grantTo p w).count + r.cutFrom p w : ℕ) : ℤ) = ⌊r.exactFor p w⌋ := by
    rw [grantTo_eq p hw, Allowance.count, cutFrom]
    omega
  have hcast : ((r.grantTo p w).count : ℚ) + r.cutFrom p w = ⌊r.exactFor p w⌋ := by
    exact_mod_cast hwhole
  rw [carry_grantTo p hw, add_right_comm, hcast, Int.floor_add_fract]

/-- What some wishes may have is their shares and what they brought. -/
theorem sum_exactFor (wishes : List (Wish σ)) :
    (wishes.map (r.exactFor p)).sum =
      (wishes.map fun w => share r.budget r.elapsed (r.requests p) w.peer).sum +
        (wishes.map fun w => (p w.stream).carry).sum :=
  List.sum_map_add

/-- The shares of a round are its budget. -/
theorem sum_share_wishes (hwishes : r.wishes ≠ []) :
    (r.wishes.map fun w => share r.budget r.elapsed (r.requests p) w.peer).sum = r.allowed := by
  have hrequests : r.requests p ≠ [] := by simpa [requests] using hwishes
  have hsum : ((r.requests p).map fun q =>
      share r.budget r.elapsed (r.requests p) q.peer).sum = r.allowed := sum_share hrequests
  rwa [requests, List.map_map] at hsum

/-- The shares of the wishes of a peer are the part of a peer. -/
theorem sum_share_of_peer {peer : Peer} (hpeer : peer ∈ peersOf (r.requests p)) :
    ((r.wishes.filter (·.peer = peer)).map fun w =>
        share r.budget r.elapsed (r.requests p) w.peer).sum =
      r.allowed / (peersOf (r.requests p)).length := by
  obtain ⟨q, hq, rfl⟩ := mem_peersOf.mp hpeer
  have hcount : (r.wishes.filter (·.peer = q.peer)).length = siblings (r.requests p) q.peer := by
    rw [siblings, requests, List.countP_map, ← List.countP_eq_length_filter]
    rfl
  -- every wish of the peer has the same share
  have hconst : ((r.wishes.filter (·.peer = q.peer)).map fun w =>
      share r.budget r.elapsed (r.requests p) w.peer) =
      List.replicate (siblings (r.requests p) q.peer)
        (share r.budget r.elapsed (r.requests p) q.peer) := by
    rw [← hcount, ← List.map_const']
    refine List.map_congr_left fun w hw => ?_
    have hpeer : w.peer = q.peer := by simpa using (List.mem_filter.mp hw).2
    rw [hpeer]
  rw [hconst, List.sum_replicate, nsmul_eq_mul, siblings_mul_share hq, allowed]

theorem cast_granted :
    (r.granted p : ℚ) = (r.wishes.map fun w => ((r.grantTo p w).count : ℚ)).sum := by
  rw [granted, answers_eq, Nat.cast_list_sum, List.map_map, List.map_map]
  rfl

theorem left_eq : r.left p = (r.wishes.map fun w => (r.grantTo p w).carry).sum := by
  rw [left, answers_eq, List.map_map]
  rfl

theorem cast_grantedTo (peer : Peer) :
    (r.grantedTo p peer : ℚ) =
      ((r.wishes.filter (·.peer = peer)).map fun w => ((r.grantTo p w).count : ℚ)).sum := by
  rw [grantedTo, answers_eq, Nat.cast_list_sum, List.filter_map, List.map_map, List.map_map]
  rfl

/-- A tick shares out its budget and what was carried in. -/
theorem granted_add_left_add_cut (hcarry : ∀ s, 0 ≤ (p s).carry) (hwishes : r.wishes ≠ []) :
    (r.granted p : ℚ) + r.left p + r.cut p = r.allowed + r.brought p := by
  rw [cast_granted, left_eq, cut, Nat.cast_list_sum, List.map_map, brought,
    ← sum_share_wishes p hwishes, ← sum_exactFor, ← List.sum_map_add, ← List.sum_map_add]
  exact congrArg List.sum <| List.map_congr_left fun w hw => count_add_carry_add_cutFrom p hcarry hw

theorem cut_eq_zero (huncut : r.Uncut p) : r.cut p = 0 := by
  refine List.sum_eq_zero fun count hcount => ?_
  obtain ⟨w, hw, rfl⟩ := List.mem_map.mp hcount
  have hfits : ⌊r.exactFor p w⌋ ≤ w.wanted := huncut _ (request_mem p hw)
  rw [cutFrom]
  omega

/-- A peer gets no more than the part of a peer and what its own requests carried in. -/
theorem grantedTo_le (hcarry : ∀ s, 0 ≤ (p s).carry) {peer : Peer}
    (hpeer : peer ∈ peersOf (r.requests p)) :
    (r.grantedTo p peer : ℚ) ≤
      r.allowed / (peersOf (r.requests p)).length + r.broughtBy p peer := by
  rw [cast_grantedTo, broughtBy, ← sum_share_of_peer p hpeer, ← sum_exactFor]
  refine List.sum_le_sum fun w hmem => ?_
  have hw : w ∈ r.wishes := (List.mem_filter.mp hmem).1
  have hfract : 0 ≤ (r.grantTo p w).carry := carry_grantTo p hw ▸ Int.fract_nonneg _
  have hcut : (0 : ℚ) ≤ r.cutFrom p w := Nat.cast_nonneg _
  linarith [count_add_carry_add_cutFrom p hcarry hw]

/-- What a tick may do with its budget, in a state of the streams. -/
structure Kept (r : Round σ) (p : σ → Pacing ℚ) : Prop where
  /-- Every grant has a limit, and leaves less than a byte. -/
  grants : ∀ grant ∈ r.grants p, ∃ count carry, grant = .bytes count carry ∧ 0 ≤ carry ∧ carry < 1
  /-- In all, no more is granted than the budget and the fractions that the tick uses up. -/
  granted_le : (r.granted p : ℚ) ≤ r.allowed + r.brought p - r.left p
  /-- A peer is granted no more than the part of a peer and the fractions of its requests. -/
  grantedTo_le : ∀ peer ∈ peersOf (r.requests p),
    (r.grantedTo p peer : ℚ) ≤ r.allowed / (peersOf (r.requests p)).length + r.broughtBy p peer

/-- A tick keeps to its budget if no stream owes a fraction. -/
theorem kept (hcarry : ∀ s, 0 ≤ (p s).carry) : r.Kept p where
  grants := by
    intro grant hgrant
    rw [grants_eq] at hgrant
    obtain ⟨w, hw, rfl⟩ := List.mem_map.mp hgrant
    exact ⟨_, _, grantTo_eq p hw, Int.fract_nonneg _, Int.fract_lt_one _⟩
  granted_le := by
    by_cases hwishes : r.wishes = []
    · have hallowed := r.allowed_pos.le
      simpa [granted, left, brought, answers, hwishes] using hallowed
    · have hcut : (0 : ℚ) ≤ r.cut p := Nat.cast_nonneg _
      linarith [granted_add_left_add_cut p hcarry hwishes]
  grantedTo_le _ := grantedTo_le p hcarry

end Round

/-- The budgets of the rounds that find a request. -/
def allowedOver (rounds : List (Round σ)) : ℚ :=
  ((rounds.filter (·.wishes ≠ [])).map Round.allowed).sum

theorem allowedOver_cons (r : Round σ) (rounds : List (Round σ)) :
    allowedOver (r :: rounds) = (if r.wishes = [] then 0 else r.allowed) + allowedOver rounds := by
  rw [allowedOver, allowedOver, List.filter_cons]
  by_cases hwishes : r.wishes = []
  · simp [hwishes]
  · simp [hwishes]

/-- The rounds without a request have a budget as well. -/
theorem allowedOver_le (rounds : List (Round σ)) :
    allowedOver rounds ≤ (rounds.map Round.allowed).sum := by
  induction rounds with
  | nil => exact le_rfl
  | cons r rounds ih =>
    rw [allowedOver_cons, List.map_cons, List.sum_cons]
    refine add_le_add ?_ ih
    split
    · exact r.allowed_pos.le
    · exact le_rfl

section Runs

variable [DecidableEq σ] {r : Round σ} {p : σ → Pacing ℚ} {rounds : List (Round σ)}

/-- The fractions that some streams carry. -/
def outstanding (streams : Finset σ) (p : σ → Pacing ℚ) : ℚ := ∑ s ∈ streams, (p s).carry

/-- The streams that have a wish in a round. -/
def Round.streams (r : Round σ) : Finset σ := (r.wishes.map Wish.stream).toFinset

/-- The streams that have a wish in any of some rounds. -/
def streamsOf (rounds : List (Round σ)) : Finset σ :=
  rounds.foldr (fun r streams => r.streams ∪ streams) ∅

/-- The streams behind some rounds. -/
def after (p : σ → Pacing ℚ) (rounds : List (Round σ)) : σ → Pacing ℚ :=
  rounds.foldl (fun p r => r.settle p) p

/-- Bytes granted over some rounds. -/
def grantedOver (p : σ → Pacing ℚ) : List (Round σ) → Nat
  | [] => 0
  | r :: rounds => r.granted p + grantedOver (r.settle p) rounds

/-- Bytes that nobody is granted over some rounds, since their wishes want less. -/
def cutOver (p : σ → Pacing ℚ) : List (Round σ) → Nat
  | [] => 0
  | r :: rounds => r.cut p + cutOver (r.settle p) rounds

/-- No grant of some rounds is cut by what its request wants. -/
def UncutOver (p : σ → Pacing ℚ) : List (Round σ) → Prop
  | [] => True
  | r :: rounds => r.Uncut p ∧ UncutOver (r.settle p) rounds

theorem carry_after (hcarry : ∀ s, 0 ≤ (p s).carry ∧ (p s).carry < 1) (s : σ) :
    0 ≤ (after p rounds s).carry ∧ (after p rounds s).carry < 1 := by
  induction rounds generalizing p with
  | nil => exact hcarry s
  | cons r rounds ih => exact ih (r.carry_settle p hcarry)

/-- A stream carries on what its grant leaves. -/
theorem carry_apply (p : Pacing ℚ) (grant : Allowance ℚ) : (p.apply grant).carry = grant.carry := by
  cases grant with
  | bytes count carry => rfl
  | unlimited => exact Nat.cast_zero

/-- A round replaces what its streams bring by what it leaves, and no other stream changes. -/
theorem outstanding_settle {streams : Finset σ} (hstreams : r.streams ⊆ streams)
    (p : σ → Pacing ℚ) :
    outstanding streams (r.settle p) + r.brought p = outstanding streams p + r.left p := by
  have hown (q : σ → Pacing ℚ) :
      ∑ s ∈ r.streams, (q s).carry = (r.wishes.map fun w => (q w.stream).carry).sum := by
    rw [Round.streams, List.sum_toFinset _ r.nodup, List.map_map]
    rfl
  have hleft : (r.wishes.map fun w => (r.settle p w.stream).carry).sum = r.left p := by
    rw [Round.left_eq]
    refine congrArg List.sum (List.map_congr_left fun w hw => ?_)
    rw [Round.settle_of_mem p hw, carry_apply]
  have hothers : ∑ s ∈ streams \ r.streams, (r.settle p s).carry =
      ∑ s ∈ streams \ r.streams, (p s).carry := by
    refine Finset.sum_congr rfl fun s hs => ?_
    rw [Round.settle_of_not_mem p (by simpa [Round.streams] using (Finset.mem_sdiff.mp hs).2)]
  rw [outstanding, outstanding, ← Finset.sum_sdiff hstreams, ← Finset.sum_sdiff hstreams, hothers,
    hown, hown, hleft, Round.brought]
  ring

/-- A round without a request leaves the streams as they are. -/
theorem settle_of_nil (hwishes : r.wishes = []) (p : σ → Pacing ℚ) :
    r.settle p = p ∧ r.granted p = 0 ∧ r.cut p = 0 := by
  refine ⟨funext fun s => Round.settle_of_not_mem p (by simp [hwishes]), ?_, ?_⟩
  · simp [Round.granted, Round.answers, hwishes]
  · simp [Round.cut, hwishes]

/-- A run shares out the budgets of its rounds: what is granted, carried at the end and cut off
are the budgets and what was carried at the start. -/
theorem grantedOver_add_outstanding_add_cutOver {streams : Finset σ}
    (hstreams : streamsOf rounds ⊆ streams)
    (hcarry : ∀ s, 0 ≤ (p s).carry ∧ (p s).carry < 1) :
    (grantedOver p rounds : ℚ) + outstanding streams (after p rounds) + cutOver p rounds =
      allowedOver rounds + outstanding streams p := by
  induction rounds generalizing p with
  | nil => simp [grantedOver, after, allowedOver, cutOver]
  | cons r rounds ih =>
    obtain ⟨hround, hrounds⟩ := Finset.union_subset_iff.mp hstreams
    have hrest := ih hrounds (r.carry_settle p hcarry)
    rw [allowedOver_cons, grantedOver, cutOver, Nat.cast_add, Nat.cast_add]
    change _ + outstanding streams (after (r.settle p) rounds) + _ = _
    by_cases hwishes : r.wishes = []
    · obtain ⟨hsettle, hgranted, hcut⟩ := settle_of_nil hwishes p
      rw [hsettle] at hrest ⊢
      rw [if_pos hwishes, hgranted, hcut, Nat.cast_zero]
      linarith
    · -- what the round leaves is what the rest of the run starts with
      have htick := r.granted_add_left_add_cut p (fun s => (hcarry s).1) hwishes
      have hsettle := outstanding_settle hround p
      rw [if_neg hwishes]
      linarith

theorem cutOver_eq_zero (huncut : UncutOver p rounds) : cutOver p rounds = 0 := by
  induction rounds generalizing p with
  | nil => rfl
  | cons r rounds ih => rw [cutOver, Round.cut_eq_zero p huncut.1, ih huncut.2]

/-- What a run may do with the budgets of its ticks. -/
structure WithinBudget (p : σ → Pacing ℚ) (rounds : List (Round σ)) : Prop where
  /-- Each tick keeps to its budget, in the state that the ticks before it leave. -/
  ticks : ∀ before r behind, rounds = before ++ r :: behind → Round.Kept r (after p before)
  /-- No stream carries a byte or more. -/
  carries : ∀ s, 0 ≤ (after p rounds s).carry ∧ (after p rounds s).carry < 1
  /-- No more is granted than the budgets of all ticks. -/
  granted_le : (grantedOver p rounds : ℚ) ≤ (rounds.map Round.allowed).sum
  /-- If no grant is cut, nothing is lost of the budgets of the ticks that find a request. -/
  conserved : UncutOver p rounds →
    (grantedOver p rounds : ℚ) + outstanding (streamsOf rounds) (after p rounds) =
      allowedOver rounds

/-- However the streams, their peers and their wishes change from tick to tick, no run grants more
than its budgets, and none that cuts nothing loses any of them. -/
theorem planTick_within_budget (p : σ → Pacing ℚ) (hcarry : ∀ s, (p s).carry = 0)
    (rounds : List (Round σ)) : WithinBudget p rounds := by
  have hfresh (s : σ) : 0 ≤ (p s).carry ∧ (p s).carry < 1 := by
    rw [hcarry s]
    exact ⟨le_rfl, one_pos⟩
  have hnone : outstanding (streamsOf rounds) p = 0 := Finset.sum_eq_zero fun s _ => hcarry s
  have hshared := grantedOver_add_outstanding_add_cutOver (subset_refl (streamsOf rounds)) hfresh
  rw [hnone, add_zero] at hshared
  refine ⟨fun _ _ _ _ => Round.kept _ fun s => (carry_after hfresh s).1, carry_after hfresh, ?_, ?_⟩
  · have hcarried : 0 ≤ outstanding (streamsOf rounds) (after p rounds) :=
      Finset.sum_nonneg fun s _ => (carry_after hfresh s).1
    have hcut : (0 : ℚ) ≤ cutOver p rounds := Nat.cast_nonneg _
    linarith [allowedOver_le rounds]
  · intro huncut
    rwa [cutOver_eq_zero huncut, Nat.cast_zero, add_zero] at hshared

end Runs

/-- Three files of three peers share 100 bytes, and two of them, now of one peer, the next 100: the
thirds of a byte that the first tick leaves are still there behind the second. -/
theorem planTick_within_budget_thirds :
    let p : Nat → Pacing ℚ := fun _ => .start ⟨0⟩
    let rounds : List (Round Nat) :=
      [{ budget := 1000
         elapsed := 1 / 10
         wishes := [⟨0, .named "a", 4096⟩, ⟨1, .named "b", 4096⟩, ⟨2, .named "c", 4096⟩]
         budget_pos := by decide
         elapsed_pos := by decide +kernel
         nodup := by decide },
       { budget := 500
         elapsed := 1 / 5
         wishes := [⟨2, .named "a", 4096⟩, ⟨0, .named "a", 4096⟩]
         budget_pos := by decide
         elapsed_pos := by decide +kernel
         nodup := by decide }]
    (∀ s, (p s).carry = 0) ∧ grantedOver p rounds = 199 ∧ UncutOver p rounds ∧
      WithinBudget p rounds := by
  refine ⟨fun _ => Nat.cast_zero, by decide +kernel, ⟨by decide +kernel, by decide +kernel, ⟨⟩⟩, ?_⟩
  exact planTick_within_budget _ (fun _ => Nat.cast_zero) _

end HttpRelay.Throttle
