import HttpRelay.Proofs.Throttle.Queues
import Mathlib.Data.Fintype.Perm
import Mathlib.Data.List.FinRange
import Mathlib.Data.List.Nodup
import Mathlib.Data.Rat.Floor

/-!
# Isolation of peers

A request is granted what its own wish, the number of peers and the number of requests of its own
peer make of the budget. Nothing else of the other requests matters, so that a busy peer takes
nothing away from the others.

* `planTick_eq_map`: a plan grants to each request on its own;
* `Alike`: what a request sees of the others;
* `alike_of_perm`, `alike_of_busy`: it sees neither their order nor how busy another peer is;
* `planTick_isolating`: what that makes of a plan, in whatever arithmetic.
-/

namespace HttpRelay.Throttle

variable {α : Type}

section Peers

variable {requests requests' : List (Request α)} {peer busy : Peer}

theorem mem_peersOf : peer ∈ peersOf requests ↔ ∃ r ∈ requests, r.peer = peer := by
  induction requests with
  | nil => simp [peersOf]
  | cons r requests ih =>
    -- the peer of the first request is listed only if none of the others has it
    rw [peersOf, List.foldr_cons, List.exists_mem_cons_iff, ← ih]
    change peer ∈ (if r.peer ∈ peersOf requests then peersOf requests
      else r.peer :: peersOf requests) ↔ _
    split
    next hmem =>
      refine ⟨.inr, fun h => h.elim ?_ id⟩
      rintro rfl
      exact hmem
    next => rw [List.mem_cons, eq_comm]

theorem nodup_peersOf (requests : List (Request α)) : (peersOf requests).Nodup := by
  induction requests with
  | nil => exact List.nodup_nil
  | cons r requests ih =>
    change (if r.peer ∈ peersOf requests then peersOf requests
      else r.peer :: peersOf requests).Nodup
    split
    · exact ih
    next hmem => exact List.nodup_cons.mpr ⟨hmem, ih⟩

/-- The same peers are as many peers. -/
theorem length_peersOf_congr (h : ∀ peer, peer ∈ peersOf requests ↔ peer ∈ peersOf requests') :
    (peersOf requests).length = (peersOf requests').length :=
  ((List.perm_ext_iff_of_nodup (nodup_peersOf _) (nodup_peersOf _)).mpr h).length_eq

/-- Two lists of requests that look the same to a peer: there are as many peers, and as many
requests of its own. -/
structure Alike (requests requests' : List (Request α)) (peer : Peer) : Prop where
  peers : (peersOf requests).length = (peersOf requests').length
  siblings : siblings requests peer = siblings requests' peer

/-- The order of requests makes no difference to anyone. -/
theorem alike_of_perm (h : requests.Perm requests') (peer : Peer) :
    Alike requests requests' peer where
  peers := by
    refine length_peersOf_congr fun other => ?_
    rw [mem_peersOf, mem_peersOf]
    simp only [h.mem_iff]
  siblings := h.countP_eq _

/-- How many requests a busy peer has makes no difference to the others. -/
theorem alike_of_busy
    (hothers : requests.filter (·.peer ≠ busy) = requests'.filter (·.peer ≠ busy))
    (hbusy : busy ∈ peersOf requests) (hbusy' : busy ∈ peersOf requests') (hpeer : peer ≠ busy) :
    Alike requests requests' peer := by
  -- Whoever is not the busy peer has the requests that are left without those of the busy peer.
  have hkept (requests : List (Request α)) {other : Peer} (hother : other ≠ busy)
      (r : Request α) :
      (r ∈ requests ∧ r.peer = other) ↔ (r ∈ requests.filter (·.peer ≠ busy) ∧ r.peer = other) := by
    rw [List.mem_filter, decide_eq_true_eq, and_assoc]
    refine and_congr_right fun _ => ⟨fun h => ⟨h ▸ hother, h⟩, And.right⟩
  have hcount (requests : List (Request α)) :
      siblings requests peer = siblings (requests.filter (·.peer ≠ busy)) peer := by
    rw [siblings, siblings, List.countP_filter]
    refine List.countP_congr fun r _ => ?_
    simp only [decide_eq_true_eq, Bool.and_eq_true]
    exact ⟨fun h => ⟨h, h ▸ hpeer⟩, And.left⟩
  refine ⟨length_peersOf_congr fun other => ?_, by rw [hcount, hothers, ← hcount]⟩
  by_cases hother : other = busy
  · -- the busy peer counts once on either side, as it has a request there
    subst hother
    exact iff_of_true hbusy hbusy'
  · rw [mem_peersOf, mem_peersOf]
    refine exists_congr fun r => ?_
    rw [hkept requests hother, hothers, ← hkept requests' hother]

end Peers

/-- Exact arithmetic. -/
instance : Quantity ℚ where
  ofNat n := n
  floor x := x.floor
  toNat x := x.floor.toNat
  isNonpositive x := x ≤ 0
  least := min

section Grants

variable [Quantity α]

/-- What a request is granted among `requests`. -/
def grantAmong (budget : Nat) (elapsed : α) (requests : List (Request α)) (r : Request α) :
    Allowance α :=
  let peerShare : α := Quantity.ofNat budget * elapsed / Quantity.ofNat (peersOf requests).length
  if budget = 0 ∨ Quantity.isNonpositive peerShare = true then .unlimited
  else grant (peerShare / Quantity.ofNat (siblings requests r.peer) + r.carry) r.remaining

/-- A plan grants to each request on its own. -/
theorem planTick_eq_map (budget : Nat) (elapsed : α) (requests : List (Request α)) :
    planTick budget elapsed requests = requests.map (grantAmong budget elapsed requests) := by
  rw [planTick]
  split
  next hbudget => exact List.map_congr_left fun r _ => (if_pos (.inl hbudget)).symm
  next hbudget => exact List.map_congr_left fun r _ => by simp only [grantAmong, hbudget, false_or]

/-- A request does not see more of the others than how many there are. -/
theorem grantAmong_congr (budget : Nat) (elapsed : α) {requests requests' : List (Request α)}
    {r : Request α} (h : Alike requests requests' r.peer) :
    grantAmong budget elapsed requests r = grantAmong budget elapsed requests' r := by
  simp only [grantAmong, h.peers, h.siblings]

/-- Either nobody is held back, or everybody is. -/
theorem grantAmong_uniform (budget : Nat) (elapsed : α) (requests : List (Request α)) :
    (∀ r, grantAmong budget elapsed requests r = .unlimited) ∨
      ∀ r, ∃ count carry, grantAmong budget elapsed requests r = .bytes count carry := by
  by_cases h : budget = 0 ∨ Quantity.isNonpositive
      (Quantity.ofNat budget * elapsed / Quantity.ofNat (peersOf requests).length : α) = true
  · exact .inl fun r => if_pos h
  · exact .inr fun r => ⟨_, _, if_neg h⟩

/-- A plan that keeps the peers apart. -/
structure Isolating (plan : List (Request α) → List (Allowance α)) : Prop where
  /-- Every request is answered. -/
  answers : ∀ requests, (plan requests).length = requests.length
  /-- The requests may come in any order. -/
  permutes : ∀ {n : Nat} (requests : Fin n → Request α) (order : Equiv.Perm (Fin n)) (i : Fin n),
    (plan (List.ofFn (requests ∘ order)))[i.val]? = (plan (List.ofFn requests))[(order i).val]?
  /-- A peer that has a request already takes nothing away from the others with more of them. -/
  isolates : ∀ (requests requests' : List (Request α)) (busy : Peer),
    requests.filter (·.peer ≠ busy) = requests'.filter (·.peer ≠ busy) →
    busy ∈ peersOf requests → busy ∈ peersOf requests' →
    (requests.zip (plan requests)).filter (·.1.peer ≠ busy) =
      (requests'.zip (plan requests')).filter (·.1.peer ≠ busy)
  /-- Equal wishes of a peer are granted equally. -/
  treats_alike : ∀ (requests : List (Request α)) (i j : Nat) (r r' : Request α),
    requests[i]? = some r → requests[j]? = some r' → r.peer = r'.peer → r.carry = r'.carry →
    r.remaining = r'.remaining → (plan requests)[i]? = (plan requests)[j]?
  /-- Either nobody is held back, or everybody is. -/
  uniform : ∀ requests, (∀ a ∈ plan requests, a = .unlimited) ∨
    ∀ a ∈ plan requests, ∃ count carry, a = .bytes count carry

/-- A request and its grant, among those that are not of a busy peer. -/
theorem filter_zip_planTick (budget : Nat) (elapsed : α) (requests : List (Request α))
    (busy : Peer) :
    (requests.zip (planTick budget elapsed requests)).filter (·.1.peer ≠ busy) =
      (requests.filter (·.peer ≠ busy)).map fun r => (r, grantAmong budget elapsed requests r) := by
  have hzip : requests.zip (planTick budget elapsed requests) =
      requests.map fun r => (r, grantAmong budget elapsed requests r) := by
    simpa [planTick_eq_map] using
      List.zip_map' (l := requests) (f := id) (g := grantAmong budget elapsed requests)
  rw [hzip, List.filter_map]
  rfl

/-- Whatever the budget, the time and the arithmetic, a tick keeps the peers apart. -/
theorem planTick_isolating (budget : Nat) (elapsed : α) :
    Isolating (planTick budget elapsed) where
  answers := length_planTick budget elapsed
  permutes := by
    intro n requests order i
    have hperm := Equiv.Perm.ofFn_comp_perm order requests
    rw [planTick_eq_map, planTick_eq_map, List.getElem?_map, List.getElem?_map]
    simp only [List.getElem?_ofFn, i.isLt, (order i).isLt, dif_pos, Option.map_some,
      Function.comp_apply, Fin.eta]
    rw [grantAmong_congr budget elapsed (alike_of_perm hperm _)]
  isolates := by
    intro requests requests' busy hothers hbusy hbusy'
    -- the same requests are left, and each of them sees the same of the two lists
    rw [filter_zip_planTick, filter_zip_planTick, hothers]
    refine List.map_congr_left fun r hr => ?_
    have hpeer : r.peer ≠ busy := by simpa using (List.mem_filter.mp hr).2
    rw [grantAmong_congr budget elapsed (alike_of_busy hothers hbusy hbusy' hpeer)]
  treats_alike := by
    rintro requests i j ⟨peer, remaining, carry⟩ ⟨peer', remaining', carry'⟩ hi hj rfl rfl rfl
    rw [planTick_eq_map, List.getElem?_map, List.getElem?_map, hi, hj]
  uniform := by
    intro requests
    rw [planTick_eq_map]
    refine (grantAmong_uniform budget elapsed requests).imp (fun h => ?_) fun h => ?_
    · simpa using fun r _ => h r
    · simpa using fun r _ => h r

end Grants

/-- Two files of one peer and one of another, to which the first peer adds a third: what the other
is granted in 100 milliseconds at 10000 bytes a second stays the same. -/
theorem planTick_isolating_third_file :
    let a : Request ℚ := ⟨.named "a", 1048576, 0⟩
    let b : Request ℚ := ⟨.named "b", 1048576, 1 / 2⟩
    planTick 10000 (elapsedMillis 100) [a, a, b] =
        [.bytes 250 0, .bytes 250 0, .bytes 500 (1 / 2)] ∧
      [a, a, b].filter (·.peer ≠ .named "a") = [a, b, a, a].filter (·.peer ≠ .named "a") ∧
      ([a, a, b].zip (planTick 10000 (elapsedMillis 100) [a, a, b])).filter
          (·.1.peer ≠ .named "a") =
        ([a, b, a, a].zip (planTick 10000 (elapsedMillis 100) [a, b, a, a])).filter
          (·.1.peer ≠ .named "a") := by
  refine ⟨by decide +kernel, by decide +kernel, ?_⟩
  exact (planTick_isolating 10000 (elapsedMillis 100)).isolates _ _ _ (by decide +kernel)
    (by decide +kernel) (by decide +kernel)

end HttpRelay.Throttle
