import HttpRelay.Proofs.Chunked.RoundTrip
import HttpRelay.Proofs.Chunked.SealedSteps

/-!
# Driving a chunked reader

A reader over input that has arrived to its end gives out what the bytes are as a chunked body. In
how many reads of what sizes that is done, and through what read-ahead, makes no difference: not for
the data, not for what is left behind the body, and not for what is found wrong with it.

* `Reader.Holds`: what a reader will give out;
* `Reader.readFrom_holds`: one read, by induction on the bytes that it still wants;
* `Reader.drive`, `Reader.drive_holds`: reads until the body has ended, or one has failed;
* `drive_agree`: two drives of one byte string, through any read-ahead.
-/

namespace HttpRelay.Chunked

namespace Reader

variable {r : Reader} {d : Decoded}

/-- A reader that will give out `d`. -/
def Holds (r : Reader) (d : Decoded) : Prop :=
  ∃ remaining bytes, r.Sealed remaining bytes ∧ decodeFrom remaining bytes = d

theorem holds_ofArrived (bytes : Bytes) (capacity : Buffered.Capacity) :
    (ofArrived bytes true capacity).Holds (decode bytes) :=
  ⟨0, bytes, ⟨⟨rfl, rfl, rfl⟩, rfl⟩, rfl⟩

/-- One read gives out the next bytes, or the last ones, or what is wrong. -/
theorem readFrom_holds (h : r.Holds d) (want : Nat) (reversed : Bytes) :
    (∃ r', readFrom want reversed r = (.ok (reversed.reverse ++ d.data.take want), r') ∧
        want ≤ d.data.length ∧ r'.ended = false ∧ r'.Holds { d with data := d.data.drop want }) ∨
      (∃ r', readFrom want reversed r = (.ok (reversed.reverse ++ d.data), r') ∧
        d.data.length < want ∧ r'.ended = true ∧ d.result = .ok r'.input.pending) ∨
      ∃ r' error, readFrom want reversed r = (.error (.failed error), r') ∧
        d.result = .error error := by
  -- Each round of the read gives out some data, or is the last one.
  induction hwant : want using Nat.strongRecOn generalizing r d reversed want with
  | ind wanted ih =>
    subst hwant
    obtain ⟨remaining, bytes, hsealed, rfl⟩ := h
    rw [readFrom]
    by_cases hzero : want = 0
    · subst hzero
      refine .inl ⟨r, by simp, Nat.zero_le _, hsealed.ended, remaining, bytes, hsealed, ?_⟩
      rw [List.drop_zero]
    rw [if_neg (by simp [hzero, hsealed.ended])]
    rcases openChunk_cases hsealed with ⟨r₁, left, pending, hopen, hleft, hsealed₁, hdecode⟩ |
      ⟨r₁, hopen, hended, hdecode⟩ | ⟨r₁, error, hopen, hdecode⟩
    · rw [hopen, hdecode]
      simp only [hsealed₁.ended, Bool.false_eq_true, if_false]
      rcases chunkData_cases hsealed₁ hleft (Nat.pos_of_ne_zero hzero) with
        ⟨k, r₂, behind, hk, hle, hlength, hread, hsealed₂, hrest⟩ | ⟨r₂, error, hread, hrest⟩
      · rw [hread, hrest]
        have hcount : (pending.take k).length = k := by
          rw [List.length_take]
          omega
        have hshorter : ¬ want ≤ want - k := by omega
        simp only [hcount, dif_neg hshorter, Decoded.behind]
        -- What this round gave out is in front of what the later ones give out.
        have hfront (more : Bytes) :
            ((pending.take k).reverse ++ reversed).reverse ++ more =
              reversed.reverse ++ (pending.take k ++ more) := by simp
        have hholds₂ : r₂.Holds (decodeFrom (left - k) behind) := ⟨_, _, hsealed₂, rfl⟩
        rcases ih (want - k) (by omega) hholds₂ (want - k)
          ((pending.take k).reverse ++ reversed) rfl with
          ⟨r₃, hmore, hroom, hopen₃, hholds⟩ | ⟨r₃, hmore, hroom, hended, hresult⟩ |
          ⟨r₃, error, hmore, hresult⟩
        · refine .inl ⟨r₃, ?_, ?_, hopen₃, ?_⟩
          · rw [hmore, hfront, List.take_append, hcount, List.take_take, Nat.min_eq_right hle]
          · rw [List.length_append, hcount]
            omega
          · rw [List.drop_append, hcount, List.drop_of_length_le (by omega), List.nil_append]
            exact hholds
        · refine .inr (.inl ⟨r₃, by rw [hmore, hfront], ?_, hended, hresult⟩)
          rw [List.length_append, hcount]
          omega
        · exact .inr (.inr ⟨r₃, error, hmore, hresult⟩)
      · rw [hread]
        exact .inr (.inr ⟨r₂, error, rfl, hrest⟩)
    · rw [hopen, hdecode]
      exact .inr (.inl ⟨r₁, by simp [hended], Nat.pos_of_ne_zero hzero, hended, rfl⟩)
    · rw [hopen, hdecode]
      exact .inr (.inr ⟨r₁, error, rfl, rfl⟩)

/-- What reads gave out until the body had ended or one of them had failed. -/
structure Drive where
  /-- The data of each read. -/
  slices : List Bytes
  /-- The bytes behind the body, or why a read failed. There is neither if more reads are called
  for. -/
  outcome : Option (Except (Halt Error) Bytes)

/-- Read until the body has ended or a read fails, with the sizes given. -/
def drive (r : Reader) : List Nat → Drive
  | [] => ⟨[], none⟩
  | n :: ns =>
    match r.read n with
    | (.error halt, _) => ⟨[], some (.error halt)⟩
    | (.ok data, r) =>
      if r.ended then ⟨[data], some (.ok r.input.pending)⟩
      else ⟨data :: (r.drive ns).slices, (r.drive ns).outcome⟩

/-- All data that reads gave out. -/
def Drive.payload (drive : Drive) : Bytes := drive.slices.flatten

/-- Reads of any sizes give out what there is. -/
theorem drive_holds (h : r.Holds d) {ns : List Nat} (hns : ∀ n ∈ ns, 0 < n) :
    (∃ rest, (r.drive ns).outcome = some (.ok rest) ∧ d.result = .ok rest ∧
        (r.drive ns).payload = d.data) ∨
      (∃ error, (r.drive ns).outcome = some (.error (.failed error)) ∧ d.result = .error error ∧
        (r.drive ns).payload <+: d.data) ∨
      (r.drive ns).outcome = none ∧ ns.length ≤ d.data.length := by
  induction ns generalizing r d with
  | nil => exact .inr (.inr ⟨rfl, Nat.zero_le _⟩)
  | cons n ns ih =>
    rw [drive, read]
    rcases readFrom_holds h n [] with ⟨r₁, hread, hroom, hopen, hholds⟩ |
      ⟨r₁, hread, -, hended, hresult⟩ | ⟨r₁, error, hread, hresult⟩
    · rw [hread]
      simp only [hopen, Bool.false_eq_true, if_false, Drive.payload, List.flatten_cons,
        List.reverse_nil, List.nil_append]
      rcases ih hholds fun m hm => hns m (List.mem_cons_of_mem n hm) with
        ⟨rest, houtcome, hresult, hpayload⟩ | ⟨error, houtcome, hresult, hpayload⟩ |
        ⟨houtcome, hlength⟩
      · refine .inl ⟨rest, houtcome, hresult, ?_⟩
        rw [Drive.payload] at hpayload
        rw [hpayload, List.take_append_drop]
      · refine .inr (.inl ⟨error, houtcome, hresult, ?_⟩)
        conv_rhs => rw [← List.take_append_drop n d.data]
        exact List.prefix_append_right_inj _ |>.mpr hpayload
      · -- a read that gives out all it was asked for leaves less
        have hpos := hns n List.mem_cons_self
        rw [List.length_drop] at hlength
        refine .inr (.inr ⟨houtcome, ?_⟩)
        rw [List.length_cons]
        omega
    · rw [hread]
      simp only [hended, if_true]
      exact .inl ⟨_, rfl, hresult, by simp [Drive.payload]⟩
    · rw [hread]
      exact .inr (.inl ⟨error, rfl, hresult, List.nil_prefix⟩)

end Reader

/-- Two drives that come to the same: both deliver the body and leave the same bytes behind it, or
both fail alike, and what they delivered until then is data of the chunks. -/
def Agree (bytes : Bytes) (drive drive' : Reader.Drive) : Prop :=
  (∃ rest, drive.outcome = some (.ok rest) ∧ drive'.outcome = some (.ok rest) ∧
      drive.payload = (decode bytes).data ∧ drive'.payload = (decode bytes).data) ∨
    ∃ error, drive.outcome = some (.error (.failed error)) ∧
      drive'.outcome = some (.error (.failed error)) ∧
      drive.payload <+: (decode bytes).data ∧ drive'.payload <+: (decode bytes).data

/-- Whatever arrived, and however it is read, if it is read often enough. -/
theorem drive_agree (bytes : Bytes) (capacity capacity' : Buffered.Capacity) {ns ns' : List Nat}
    (hns : ∀ n ∈ ns, 0 < n) (hns' : ∀ n ∈ ns', 0 < n) (hmany : bytes.length < ns.length)
    (hmany' : bytes.length < ns'.length) :
    Agree bytes ((Reader.ofArrived bytes true capacity).drive ns)
      ((Reader.ofArrived bytes true capacity').drive ns') := by
  have hdrive := Reader.drive_holds (Reader.holds_ofArrived bytes capacity) hns
  have hdrive' := Reader.drive_holds (Reader.holds_ofArrived bytes capacity') hns'
  have hdata := length_data_decode_le bytes
  rcases hdrive with
    ⟨rest, houtcome, hresult, hpayload⟩ | ⟨error, houtcome, hresult, hpayload⟩ | ⟨-, hlength⟩
  · rcases hdrive' with
      ⟨rest', houtcome', hresult', hpayload'⟩ | ⟨error', -, hresult', -⟩ | ⟨-, hlength'⟩
    · obtain rfl : rest = rest' := Except.ok.inj (hresult.symm.trans hresult')
      exact .inl ⟨rest, houtcome, houtcome', hpayload, hpayload'⟩
    · cases hresult.symm.trans hresult'
    · omega
  · rcases hdrive' with
      ⟨rest', -, hresult', -⟩ | ⟨error', houtcome', hresult', hpayload'⟩ | ⟨-, hlength'⟩
    · cases hresult.symm.trans hresult'
    · obtain rfl : error = error' := Except.error.inj (hresult.symm.trans hresult')
      exact .inr ⟨error, houtcome, houtcome', hpayload, hpayload'⟩
    · omega
  · omega

/-- A chunk with too much data, read a byte at a time through a buffer of one byte, and three bytes
at a time through a large one: more of its data is delivered before the one error. -/
theorem drive_agree_long_chunk :
    let bytes := Bytes.ofText "5\r\nhelloXX"
    let drive := (Reader.ofArrived bytes true 1).drive (List.replicate 11 1)
    let drive' := (Reader.ofArrived bytes true 8192).drive (List.replicate 11 3)
    drive.payload = Bytes.ofText "hell" ∧ drive'.payload = Bytes.ofText "hel" ∧
      Agree bytes drive drive' := by
  refine ⟨by decide +kernel, by decide +kernel, ?_⟩
  refine drive_agree _ _ _ ?_ ?_ (by decide +kernel) (by decide +kernel)
  · simp
  · simp

end HttpRelay.Chunked
