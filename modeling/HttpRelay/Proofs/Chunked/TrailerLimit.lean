import HttpRelay.Proofs.Chunked.BodyDecoding

/-!
# The limit of the trailers

How many trailers a body may have. The empty line behind them is one of the lines that are read, so
a body with as many trailers as there may be lines is refused, as if it had more.

* `takeTrailers_cases`: what trailers of the grammar come to, whatever is in them;
* `takeTrailers_of_fits`: trailers that are short enough, by their number;
* `outcome_delivered_iff`, `outcome_tooManyTrailers_iff`: what a reader comes to, by their number;
* `holdsToTrailerLimit_iff`: the number of trailers that is not treated as the limit says.
-/

namespace HttpRelay.Chunked

section Lines

variable {trailers : List Line}

/-- Trailers of the grammar are read to an end, or there are too many or too long ones. -/
theorem takeTrailers_cases (trailers : List Line) (ending : Terminator) (budget : Nat)
    (after : Bytes) :
    (∃ rest, takeTrailers budget (trailers.flatMap Line.bytes ++ ending.bytes ++ after) =
        .ok rest) ∨
      ∃ error, takeTrailers budget (trailers.flatMap Line.bytes ++ ending.bytes ++ after) =
          .error error ∧
        (error = .tooManyTrailers maxTrailerLines ∨ error = .lineTooLong maxLineLength) := by
  induction trailers generalizing budget with
  | nil =>
    cases budget with
    | zero => exact .inr ⟨_, rfl, .inl rfl⟩
    | succ budget =>
      rw [takeTrailers, List.flatMap_nil, List.nil_append, takeLine_terminator]
      exact .inl ⟨after, rfl⟩
  | cons trailer trailers ih =>
    cases budget with
    | zero => exact .inr ⟨_, rfl, .inl rfl⟩
    | succ budget =>
      rw [takeTrailers, List.flatMap_cons, List.append_assoc, List.append_assoc]
      by_cases hfits : trailer.Fits
      · rw [takeLine_of_fits hfits]
        dsimp only
        split
        next => exact .inl ⟨_, rfl⟩
        next => simpa only [List.append_assoc] using ih budget
      · rw [takeLine_of_not_fits hfits]
        exact .inr ⟨_, rfl, .inr rfl⟩

/-- Trailers that are short enough and not empty are read if there is a line left for the empty one
behind them. -/
theorem takeTrailers_of_fits (h : ∀ trailer ∈ trailers, trailer.content ≠ [] ∧ trailer.Fits)
    (ending : Terminator) (budget : Nat) (after : Bytes) :
    takeTrailers budget (trailers.flatMap Line.bytes ++ ending.bytes ++ after) =
      if trailers.length < budget then .ok after
      else .error (.tooManyTrailers maxTrailerLines) := by
  induction trailers generalizing budget with
  | nil =>
    cases budget with
    | zero => rfl
    | succ budget =>
      have hroom : ([] : List Line).length < budget + 1 := Nat.zero_lt_succ budget
      rw [takeTrailers, List.flatMap_nil, List.nil_append, takeLine_terminator, if_pos hroom]
      rfl
  | cons trailer trailers ih =>
    obtain ⟨⟨hsome, hfits⟩, htrailers⟩ := List.forall_mem_cons.mp h
    cases budget with
    | zero => rfl
    | succ budget =>
      -- this trailer takes one line of the budget
      have hmore : ¬ trailer.content.isEmpty = true := by simpa using hsome
      rw [takeTrailers, List.flatMap_cons, List.append_assoc, List.append_assoc,
        takeLine_of_fits hfits]
      dsimp only
      rw [if_neg hmore, ← List.append_assoc, ih htrailers, List.length_cons]
      simp only [Nat.add_lt_add_iff_right]

end Lines

section Bodies

variable {body : Body} {after : Bytes}

/-- A body with trailers that are all short enough and not empty, by their number. -/
theorem decode_body_of_trailers
    (htrailers : ∀ trailer ∈ body.trailers, trailer.content ≠ [] ∧ trailer.Fits)
    (htaken : ∀ line ∈ body.sizeLines, line.Taken) (after : Bytes) :
    decode (body.bytes ++ after) =
      ⟨body.payload, if body.trailers.length < maxTrailerLines then .ok after
        else .error (.tooManyTrailers maxTrailerLines)⟩ := by
  rw [decode_body_of_taken htaken, Body.trailerBytes, takeTrailers_of_fits htrailers]

/-- A body is delivered if it has fewer trailers than there may be lines. -/
theorem outcome_delivered_iff
    (htrailers : ∀ trailer ∈ body.trailers, trailer.content ≠ [] ∧ trailer.Fits)
    (schedule : Schedule (body.bytes ++ after)) :
    (schedule.drive.outcome = some (.ok after) ∧ schedule.drive.payload = body.payload) ↔
      (∀ line ∈ body.sizeLines, line.Taken) ∧ body.trailers.length < maxTrailerLines := by
  rw [schedule.outcome_eq_ok]
  -- if a size line is refused, the trailers are not reached
  by_cases htaken : ∀ line ∈ body.sizeLines, line.Taken
  · have hdecode := decode_body_of_trailers htrailers htaken after
    by_cases hfew : body.trailers.length < maxTrailerLines
    · rw [if_pos hfew] at hdecode
      have hresult : (decode (body.bytes ++ after)).result = .ok after := by rw [hdecode]
      have hpayload := schedule.payload_eq hresult
      rw [hdecode] at hpayload
      exact ⟨fun _ => ⟨htaken, hfew⟩, fun _ => ⟨hresult, hpayload⟩⟩
    · rw [hdecode, if_neg hfew]
      exact ⟨fun h => absurd h.1 nofun, fun h => absurd h.2 hfew⟩
  · obtain ⟨text, hresult⟩ := decode_body_of_not_taken htaken after
    rw [hresult]
    exact ⟨fun h => absurd h.1 nofun, fun h => absurd h.1 htaken⟩

/-- A body is refused for its trailers if it has as many of them as there may be lines. -/
theorem outcome_tooManyTrailers_iff
    (htrailers : ∀ trailer ∈ body.trailers, trailer.content ≠ [] ∧ trailer.Fits)
    (schedule : Schedule (body.bytes ++ after)) :
    schedule.drive.outcome = some (.error (.failed (.tooManyTrailers maxTrailerLines))) ↔
      (∀ line ∈ body.sizeLines, line.Taken) ∧ maxTrailerLines ≤ body.trailers.length := by
  rw [schedule.outcome_eq_failed (by simp)]
  by_cases htaken : ∀ line ∈ body.sizeLines, line.Taken
  · rw [decode_body_of_trailers htrailers htaken]
    by_cases hfew : body.trailers.length < maxTrailerLines
    · rw [if_pos hfew]
      exact ⟨nofun, fun h => absurd h.2 (Nat.not_le.mpr hfew)⟩
    · rw [if_neg hfew]
      exact ⟨fun _ => ⟨htaken, Nat.not_lt.mp hfew⟩, fun _ => rfl⟩
  · obtain ⟨text, hresult⟩ := decode_body_of_not_taken htaken after
    rw [hresult]
    exact ⟨nofun, fun h => absurd h.1 htaken⟩

/-- The number of trailers is limited as the limit says: up to it the body is delivered, and beyond
it refused. -/
structure HoldsToTrailerLimit (body : Body) (after : Bytes) (drive : Reader.Drive) : Prop where
  delivered : body.trailers.length ≤ maxTrailerLines →
    drive.outcome = some (.ok after) ∧ drive.payload = body.payload
  refused : drive.outcome = some (.error (.failed (.tooManyTrailers maxTrailerLines))) ↔
    maxTrailerLines < body.trailers.length

/-- The limit holds of all bodies whose size lines are taken but those with as many trailers as it
allows. -/
theorem holdsToTrailerLimit_iff
    (htrailers : ∀ trailer ∈ body.trailers,
      trailer.content ≠ [] ∧ trailer.content.length ≤ maxLineLength)
    (schedule : Schedule (body.bytes ++ after)) :
    HoldsToTrailerLimit body after schedule.drive ↔
      body.trailers.length ≠ maxTrailerLines ∧ ∀ line ∈ body.sizeLines, line.Taken := by
  have hfits : ∀ trailer ∈ body.trailers, trailer.content ≠ [] ∧ trailer.Fits :=
    fun trailer htrailer => (htrailers trailer htrailer).imp_right
      fun hlength => trailer.fits_iff.mpr (.inl hlength)
  have hdelivered := outcome_delivered_iff hfits schedule
  have hrefused := outcome_tooManyTrailers_iff hfits schedule
  constructor
  · intro h
    rcases Nat.lt_or_ge maxTrailerLines body.trailers.length with hmany | hfew
    · exact ⟨Nat.ne_of_gt hmany, (hrefused.mp (h.refused.mpr hmany)).1⟩
    · -- what is delivered has fewer trailers than the limit allows
      obtain ⟨htaken, hlt⟩ := hdelivered.mp (h.delivered hfew)
      exact ⟨Nat.ne_of_lt hlt, htaken⟩
  · rintro ⟨hne, htaken⟩
    refine ⟨fun hle => hdelivered.mpr ⟨htaken, Nat.lt_of_le_of_ne hle hne⟩, ?_⟩
    rw [hrefused]
    exact ⟨fun h => Nat.lt_of_le_of_ne h.2 hne.symm, fun h => ⟨htaken, Nat.le_of_lt h⟩⟩

/-- A body with no data, and with trailers. -/
def bodyWithTrailers (count : Nat) : Body where
  chunks := []
  last := writtenLine 0
  trailers := List.replicate count ⟨Bytes.ofText "a", .crlf, by decide⟩
  ending := .crlf
  spells := writtenLine_spells (by decide)
  nonempty trailer h := by
    rw [List.eq_of_mem_replicate h]
    decide

theorem bodyWithTrailers_taken (count : Nat) :
    ∀ line ∈ (bodyWithTrailers count).sizeLines, line.Taken := by
  intro line hline
  -- there is no chunk in front of the closing one
  obtain rfl := List.mem_singleton.mp hline
  exact writtenLine_taken (by decide)

theorem bodyWithTrailers_trailers (count : Nat) :
    ∀ trailer ∈ (bodyWithTrailers count).trailers,
      trailer.content ≠ [] ∧ trailer.content.length ≤ maxLineLength := by
  intro trailer h
  rw [List.eq_of_mem_replicate h]
  decide

/-- With 63 trailers, and with 65. -/
theorem holdsToTrailerLimit_besides :
    HoldsToTrailerLimit (bodyWithTrailers 63) []
        (Schedule.bytewise ((bodyWithTrailers 63).bytes ++ []) true).drive ∧
      HoldsToTrailerLimit (bodyWithTrailers 65) []
        (Schedule.bytewise ((bodyWithTrailers 65).bytes ++ []) true).drive := by
  constructor
  · exact (holdsToTrailerLimit_iff (bodyWithTrailers_trailers 63) _).mpr
      ⟨by decide, bodyWithTrailers_taken 63⟩
  · exact (holdsToTrailerLimit_iff (bodyWithTrailers_trailers 65) _).mpr
      ⟨by decide, bodyWithTrailers_taken 65⟩

/-- With 64 trailers, as many as the limit allows, a body is refused. -/
theorem not_holdsToTrailerLimit_at_limit :
    (bodyWithTrailers 64).trailers.length = 64 ∧
      (Schedule.bytewise ((bodyWithTrailers 64).bytes ++ []) true).drive.outcome =
        some (.error (.failed (.tooManyTrailers 64))) ∧
      ¬ HoldsToTrailerLimit (bodyWithTrailers 64) []
        (Schedule.bytewise ((bodyWithTrailers 64).bytes ++ []) true).drive := by
  have houtcome : (Schedule.bytewise ((bodyWithTrailers 64).bytes ++ []) true).drive.outcome =
      some (.error (.failed (.tooManyTrailers 64))) := by decide +kernel
  refine ⟨rfl, houtcome, fun h => ?_⟩
  have hmany := h.refused.mp houtcome
  exact absurd hmany (by decide)

end Bodies

end HttpRelay.Chunked
