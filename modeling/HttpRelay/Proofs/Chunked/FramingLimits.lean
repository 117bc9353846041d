import HttpRelay.Proofs.Chunked.BodyDecoding

/-!
# The limit of a framing line

A decoder goes from place to place in a stream, and at some of them it takes a line. Which lines it
takes depends on the place, on the line and on its length, terminator included: the room that is
kept for a carriage return is there for the text of a line without one.

* `Place`, `Place.next`: where a decoder is, and what it takes there;
* `next_spec`, `decode_of_comes`: one step of a decoder, and a run of it;
* `exists_last_place`: a run comes to the end of the body, or to where something is wrong;
* `isLimited_iff`: the lines that the limit holds for.
-/

namespace HttpRelay.Chunked

/-! ### Places -/

/-- Where a decoder is in a stream. -/
inductive Place where
  /-- In front of a size line. -/
  | size
  /-- In front of the data of a chunk. -/
  | data (length : Nat) (nonzero : length ≠ 0)
  /-- In front of the empty line that ends a chunk. -/
  | ending
  /-- In front of a trailer line, or of the empty line that ends the trailers. -/
  | trailers (budget : Nat)
  /-- Behind the body. -/
  | behind

/-- What a decoder takes, and where it is then. -/
structure Step where
  data : Bytes
  place : Place
  rest : Bytes

/-- What a decoder takes at a place. There is nothing to take behind a body. -/
def Place.next : Place → Bytes → Except Error Step
  | size, bytes =>
    (takeSize bytes).map fun (length, rest) =>
      if h : length = 0 then ⟨[], trailers maxTrailerLines, rest⟩ else ⟨[], data length h, rest⟩
  | data length _, bytes =>
    if bytes.length < length then .error .unexpectedEof
    else .ok ⟨bytes.take length, ending, bytes.drop length⟩
  | ending, bytes =>
    match takeLine bytes with
    | .ok (line, rest) => if line.isEmpty then .ok ⟨[], size, rest⟩ else .error .invalidTrailer
    | .error error => .error error
  | trailers 0, _ => .error (.tooManyTrailers maxTrailerLines)
  | trailers (budget + 1), bytes =>
    (takeLine bytes).map fun (line, rest) =>
      if line.isEmpty then ⟨[], behind, rest⟩ else ⟨[], trailers budget, rest⟩
  | behind, bytes => .ok ⟨[], behind, bytes⟩

/-- The rest of a body from a place. -/
def decodeAt : Place → Bytes → Decoded
  | .size, bytes => decodeFrom 0 bytes
  | .data length _, bytes => decodeFrom length bytes
  | .ending, bytes => decodeData 0 bytes
  | .trailers budget, bytes => ⟨[], takeTrailers budget bytes⟩
  | .behind, bytes => ⟨[], .ok bytes⟩

section Steps

/-- What is taken at a place is decoded, and then what is behind it. What is wrong at a place is
wrong with the body. -/
theorem next_spec (place : Place) (bytes : Bytes) :
    match place.next bytes with
    | .ok step => decodeAt place bytes = (decodeAt step.place step.rest).behind step.data ∧
        (place = .behind ∨ step.rest.length < bytes.length)
    | .error error => (decodeAt place bytes).result = .error error := by
  cases place with
  | size =>
    rw [Place.next]
    cases hsize : takeSize bytes with
    | error error =>
      change (decodeFrom 0 bytes).result = _
      rw [decodeFrom_of_no_size hsize]
    | ok taken =>
      obtain ⟨length, rest⟩ := taken
      have hlength := length_lt_of_takeSize hsize
      -- behind a size of zero come the trailers, behind any other one the data
      by_cases hzero : length = 0
      · subst hzero
        exact ⟨decodeFrom_last hsize, .inr hlength⟩
      · simp only [Except.map, dif_neg hzero]
        exact ⟨decodeFrom_open hsize hzero, .inr hlength⟩
  | data length nonzero =>
    rw [Place.next]
    by_cases hshort : bytes.length < length
    · rw [if_pos hshort]
      change (decodeFrom length bytes).result = _
      rw [decodeFrom, if_neg nonzero, if_pos hshort]
    · rw [if_neg hshort]
      refine ⟨decodeFrom_whole nonzero (Nat.not_lt.mp hshort), .inr ?_⟩
      rw [List.length_drop]
      omega
  | ending =>
    rw [Place.next, decodeAt, decodeData, if_pos rfl]
    cases hline : takeLine bytes with
    | error error => rfl
    | ok taken =>
      obtain ⟨line, rest⟩ := taken
      dsimp only
      cases line.isEmpty with
      | true => exact ⟨rfl, .inr (length_lt_of_takeLine hline)⟩
      | false => rfl
  | trailers budget =>
    cases budget with
    | zero => rfl
    | succ budget =>
      rw [Place.next, decodeAt, takeTrailers]
      cases hline : takeLine bytes with
      | error error => rfl
      | ok taken =>
        have hlength := length_lt_of_takeLine hline
        simp only [Except.map]
        split <;> exact ⟨rfl, .inr hlength⟩
  | behind => exact ⟨rfl, .inl rfl⟩

variable {place : Place} {bytes : Bytes} {step : Step}

theorem decodeAt_of_next (h : place.next bytes = .ok step) :
    decodeAt place bytes = (decodeAt step.place step.rest).behind step.data := by
  have hspec := next_spec place bytes
  rw [h] at hspec
  exact hspec.1

theorem result_decodeAt_of_next {error : Error} (h : place.next bytes = .error error) :
    (decodeAt place bytes).result = .error error := by
  have hspec := next_spec place bytes
  rw [h] at hspec
  exact hspec

/-- In front of the end of a body, something is taken. -/
theorem length_lt_of_next (h : place.next bytes = .ok step) (hplace : place ≠ .behind) :
    step.rest.length < bytes.length := by
  have hspec := next_spec place bytes
  rw [h] at hspec
  exact hspec.2.resolve_left hplace

end Steps

/-! ### Runs -/

/-- The places that a decoder comes to, with the data that it has taken and the bytes that are left
there. -/
inductive Comes (stream : Bytes) : Place → Bytes → Bytes → Prop where
  | start : Comes stream .size [] stream
  | next {place : Place} {payload bytes : Bytes} {step : Step} :
      Comes stream place payload bytes → place.next bytes = .ok step →
        Comes stream step.place (payload ++ step.data) step.rest

section Runs

variable {stream payload bytes : Bytes} {place : Place}

/-- A stream is decoded as far as a decoder comes, and from there. -/
theorem decode_of_comes (h : Comes stream place payload bytes) :
    decode stream = (decodeAt place bytes).behind payload := by
  induction h with
  | start => rfl
  | next _ hstep ih => rw [ih, decodeAt_of_next hstep, behind_behind]

/-- What is wrong where a decoder comes to is what is wrong with the stream. -/
theorem result_decode_of_comes {error : Error} (h : Comes stream place payload bytes)
    (herror : place.next bytes = .error error) : (decode stream).result = .error error := by
  rw [decode_of_comes h]
  exact result_decodeAt_of_next herror

theorem exists_last_place_from (h : Comes stream place payload bytes) :
    ∃ (place : Place) (payload bytes : Bytes), Comes stream place payload bytes ∧
      (place = .behind ∨ ∃ error, place.next bytes = .error error) := by
  induction hlength : bytes.length using Nat.strongRecOn generalizing place payload bytes with
  | ind length ih =>
    subst hlength
    -- as long as something is taken, less is left to go on with
    by_cases hplace : place = .behind
    · exact ⟨place, payload, bytes, h, .inl hplace⟩
    cases hnext : place.next bytes with
    | error error => exact ⟨place, payload, bytes, h, .inr ⟨error, hnext⟩⟩
    | ok step => exact ih _ (length_lt_of_next hnext hplace) (h.next hnext) rfl

/-- In any stream, a decoder comes to the end of the body, or to where something is wrong. -/
theorem exists_last_place (stream : Bytes) :
    ∃ (place : Place) (payload bytes : Bytes), Comes stream place payload bytes ∧
      (place = .behind ∧ decode stream = ⟨payload, .ok bytes⟩ ∨
        ∃ error, place.next bytes = .error error ∧ (decode stream).result = .error error) := by
  have hstart : Comes stream .size [] stream := .start
  obtain ⟨place, payload, bytes, hcomes, hlast⟩ := exists_last_place_from hstart
  refine ⟨place, payload, bytes, hcomes, hlast.imp (fun hplace => ⟨hplace, ?_⟩) ?_⟩
  · subst hplace
    rw [decode_of_comes hcomes, decodeAt, Decoded.behind, List.append_nil]
  · rintro ⟨error, herror⟩
    exact ⟨error, herror, result_decode_of_comes hcomes herror⟩

end Runs

/-! ### Lines -/

/-- The place is in front of a size line or a trailer line. -/
inductive Place.IsFraming : Place → Prop where
  | size : IsFraming .size
  | trailer (budget : Nat) : IsFraming (.trailers (budget + 1))

/-- An error that refuses a line at a place for its length. -/
def Place.Refuses : Place → Error → Prop
  | size, error => ∃ text, error = .invalidSize text
  | _, error => error = .lineTooLong maxLineLength

theorem Place.Refuses.ne_unexpectedEof {place : Place} {error : Error} (h : place.Refuses error) :
    error ≠ .unexpectedEof := by
  rintro rfl
  cases place
  case size => exact absurd h.choose_spec nofun
  all_goals cases h

/-- A reader in front of a line at a place accepts it. -/
def Place.Accepts : Place → Reader → Prop
  | size, r => ∃ length r', Reader.sizeLine.run.run r = (.ok length, r')
  | _, r => ∃ text r', Reader.line.run.run r = (.ok text, r')

/-- The limit holds for a line: it is accepted only within the limit, and a stream in which it is
beyond the limit is refused. -/
structure IsLimited {stream : Bytes} (schedule : Schedule stream) (place : Place) (line : Line)
    (after : Bytes) : Prop where
  accepted :
    place.Accepts (Reader.ofArrived (line.bytes ++ after) schedule.closed schedule.capacity) →
      line.content.length ≤ maxLineLength
  refused : maxLineLength < line.content.length →
    ∃ error, place.Refuses error ∧ schedule.drive.outcome = some (.error (.failed error))

section Lines

variable {place : Place} {line : Line} {after : Bytes}

/-- What a reader accepts is what a decoder takes. -/
theorem accepts_iff_next (hplace : place.IsFraming) (bytes : Bytes) (closed : Bool)
    (capacity : Buffered.Capacity) :
    place.Accepts (Reader.ofArrived bytes closed capacity) ↔
      ∃ step, place.next bytes = .ok step := by
  have hsealed : (Reader.ofArrived bytes true capacity).Sealed 0 bytes :=
    ⟨⟨rfl, rfl, rfl⟩, rfl⟩
  have hclose : (Reader.ofArrived bytes closed capacity).close =
      Reader.ofArrived bytes true capacity := rfl
  -- whether there is a value does not depend on whether more bytes may come
  cases hplace with
  | size =>
    rw [Place.Accepts, ← Reader.exists_ok_close_iff Reader.decided_sizeLine
      Reader.breaksOff_sizeLine, hclose, (Reader.sizeLine_takes hsealed).exists_ok_iff, Place.next]
    exact (Outcome.exists_map_eq_ok_iff _ _).symm
  | trailer budget =>
    change (∃ text r', Reader.line.run.run (Reader.ofArrived bytes closed capacity) =
      (.ok text, r')) ↔ _
    rw [← Reader.exists_ok_close_iff Reader.decided_line Reader.breaksOff_line, hclose,
      (Reader.line_takes hsealed).exists_ok_iff, Place.next]
    exact (Outcome.exists_map_eq_ok_iff _ _).symm

/-- A line is accepted if it is short enough, and a size line if it gives a size as well. -/
theorem next_eq_ok_iff (hplace : place.IsFraming) :
    (∃ step, place.next (line.bytes ++ after) = .ok step) ↔
      line.Fits ∧ (place = .size → line.Legible ∧ ∃ size, Spells size line.content) := by
  cases hplace with
  | size =>
    by_cases hfits : line.Fits
    · rw [Place.next, takeSize_of_fits hfits]
      cases hparse : parseSize line.content with
      | ok size =>
        obtain ⟨hspells, hlegible⟩ := parseSize_eq_ok_iff.mp hparse
        exact ⟨fun _ => ⟨hfits, fun _ => ⟨hlegible, size, hspells⟩⟩, fun _ => ⟨_, rfl⟩⟩
      | error error =>
        refine ⟨fun ⟨step, hstep⟩ => ?_, fun ⟨_, hsize⟩ => ?_⟩
        · cases hstep
        · obtain ⟨hlegible, size, hspells⟩ := hsize rfl
          cases hparse.symm.trans (parseSize_eq_ok_iff.mpr ⟨hspells, hlegible⟩)
    · obtain ⟨text, htake⟩ := takeSize_of_not_fits hfits after
      rw [Place.next, htake]
      refine ⟨fun ⟨step, hstep⟩ => ?_, fun ⟨h, _⟩ => absurd h hfits⟩
      cases hstep
  | trailer budget =>
    by_cases hfits : line.Fits
    · rw [Place.next, takeLine_of_fits hfits]
      exact ⟨fun _ => ⟨hfits, nofun⟩, fun _ => ⟨_, rfl⟩⟩
    · rw [Place.next, takeLine_of_not_fits hfits]
      refine ⟨fun ⟨step, hstep⟩ => ?_, fun ⟨h, _⟩ => absurd h hfits⟩
      cases hstep

/-- A line that is not accepted is refused, for its length or as no size. -/
theorem exists_refusal (hplace : place.IsFraming)
    (h : ¬ ∃ step, place.next (line.bytes ++ after) = .ok step) :
    ∃ error, place.Refuses error ∧ place.next (line.bytes ++ after) = .error error := by
  cases hplace with
  | size =>
    by_cases hfits : line.Fits
    · rw [Place.next, takeSize_of_fits hfits] at h ⊢
      cases hparse : parseSize line.content with
      | ok size =>
        rw [hparse] at h
        exact absurd ⟨_, rfl⟩ h
      | error error => exact ⟨error, invalidSize_of_parseSize hparse, rfl⟩
    · obtain ⟨text, htake⟩ := takeSize_of_not_fits hfits after
      exact ⟨.invalidSize text, ⟨text, rfl⟩, by rw [Place.next, htake]; rfl⟩
  | trailer budget =>
    have hfits : ¬ line.Fits := fun hfits =>
      h ((next_eq_ok_iff (.trailer budget)).mpr ⟨hfits, nofun⟩)
    exact ⟨_, rfl, by rw [Place.next, takeLine_of_not_fits hfits]; rfl⟩

/-- The limit holds for a line in any stream and in any way of reading it, unless the line is a byte
too long and ends in a bare line feed, with nothing else wrong with it. -/
theorem isLimited_iff {stream payload : Bytes} (hplace : place.IsFraming)
    (hcomes : Comes stream place payload (line.bytes ++ after)) (schedule : Schedule stream) :
    IsLimited schedule place line after ↔
      ¬ (line.IsOverlong ∧
        (place = .size → line.Legible ∧ ∃ size, Spells size line.content)) := by
  have haccepts := accepts_iff_next hplace (line.bytes ++ after) schedule.closed
    schedule.capacity
  rw [next_eq_ok_iff hplace] at haccepts
  constructor
  · -- the overlong line is accepted, with its one byte too many
    rintro hlimited ⟨hoverlong, hsize⟩
    have hfits : line.Fits := line.fits_iff.mpr (.inr hoverlong)
    have hlength := hlimited.accepted (haccepts.mpr ⟨hfits, hsize⟩)
    rw [hoverlong.1] at hlength
    omega
  · intro hnot
    -- a line that is accepted is within the limit, or the one that is not
    have hwithin : line.Fits ∧ (place = .size → line.Legible ∧ ∃ size, Spells size line.content) →
        line.content.length ≤ maxLineLength := by
      rintro ⟨hfits, hsize⟩
      exact (line.fits_iff.mp hfits).resolve_right fun hoverlong => hnot ⟨hoverlong, hsize⟩
    refine ⟨fun h => hwithin (haccepts.mp h), fun hlong => ?_⟩
    -- a line beyond the limit is refused in its place, and so is the stream
    obtain ⟨error, hrefuses, herror⟩ := exists_refusal hplace
      fun hstep => Nat.not_le.mpr hlong (hwithin ((next_eq_ok_iff hplace).mp hstep))
    have hresult := result_decode_of_comes hcomes herror
    exact ⟨error, hrefuses, (schedule.outcome_eq_failed hrefuses.ne_unexpectedEof).mpr hresult⟩

end Lines

/-- A trailer of the greatest length. -/
def longestTrailer : Line where
  text := List.replicate 1024 120
  terminator := .lf
  lf_not_mem h := absurd (List.eq_of_mem_replicate h) (by decide)

/-- A trailer of the greatest length, in a body with no data. -/
theorem isLimited_longest_trailer :
    longestTrailer.content.length = 1024 ∧
      IsLimited
        (Schedule.bytewise (Bytes.ofText "0\r\n" ++ (longestTrailer.bytes ++ Bytes.crlf)) false)
        (.trailers 64) longestTrailer Bytes.crlf := by
  have hlength : longestTrailer.content.length = 1024 := by decide +kernel
  have hlast : Place.size.next (Bytes.ofText "0\r\n" ++ (longestTrailer.bytes ++ Bytes.crlf)) =
      .ok ⟨[], .trailers 64, longestTrailer.bytes ++ Bytes.crlf⟩ := by
    have hbytes : Bytes.ofText "0\r\n" = (writtenLine 0).bytes := by decide
    rw [Place.next, hbytes, takeSize_of_taken (writtenLine_spells (by decide))
      (writtenLine_taken (by decide))]
    rfl
  refine ⟨hlength, (isLimited_iff (.trailer 63) (.next .start hlast) _).mpr ?_⟩
  rintro ⟨hoverlong, -⟩
  exact absurd (hoverlong.1.symm.trans hlength) (by decide)

/-- A body of nothing but a last size line and an empty line is read to its end. -/
theorem outcome_of_last {last : Line} (h : Spells 0 last.text) (htaken : last.Taken)
    (schedule : Schedule (last.bytes ++ Bytes.crlf)) : schedule.drive.outcome = some (.ok []) := by
  rw [Schedule.outcome_eq_ok, decode, decodeFrom_last (takeSize_of_taken h htaken Bytes.crlf)]
  decide

/-- A last size line that is a byte too long, by its extension. -/
def overlongSize : Line where
  text := [48, semicolon] ++ List.replicate 1023 120
  terminator := .lf
  lf_not_mem h := (List.mem_append.mp h).elim (by decide)
    fun hmem => absurd (List.eq_of_mem_replicate hmem) (by decide)

theorem overlongSize_spells : Spells 0 overlongSize.text := by decide +kernel

theorem overlongSize_taken : overlongSize.Taken := by
  refine ⟨by decide +kernel, Text.Utf8.isSome_decode?_ascii fun b hb => ?_⟩
  rcases List.mem_append.mp (overlongSize.mem_text_of_mem_content hb) with hmem | hmem
  · rcases List.mem_pair.mp hmem with rfl | rfl <;> decide
  · rw [List.eq_of_mem_replicate hmem]
    decide

/-- A size line that is a byte too long is accepted, and the body with it. -/
theorem not_isLimited_overlong_size :
    overlongSize.content.length = 1025 ∧
      Comes (overlongSize.bytes ++ Bytes.crlf) .size [] (overlongSize.bytes ++ Bytes.crlf) ∧
      (Schedule.bytewise (overlongSize.bytes ++ Bytes.crlf) true).drive.outcome = some (.ok []) ∧
      ¬ IsLimited (Schedule.bytewise (overlongSize.bytes ++ Bytes.crlf) true) .size overlongSize
        Bytes.crlf := by
  have hlength : overlongSize.content.length = 1025 := by decide +kernel
  refine ⟨hlength, .start, outcome_of_last overlongSize_spells overlongSize_taken _,
    fun hlimited => ?_⟩
  have haccepts := (accepts_iff_next .size (overlongSize.bytes ++ Bytes.crlf) true
    (Schedule.bytewise (overlongSize.bytes ++ Bytes.crlf) true).capacity).mpr
      ((next_eq_ok_iff .size).mpr ⟨overlongSize_taken.fits, fun _ =>
        ⟨overlongSize_taken.legible, 0, overlongSize_spells.content⟩⟩)
  have hle := hlimited.accepted haccepts
  rw [hlength] at hle
  exact absurd hle (by decide)

end HttpRelay.Chunked
