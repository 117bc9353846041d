import HttpRelay.Proofs.Chunked.TrailerLimit

/-!
# Extensions of size lines

A body with extensions on its size lines against the same body without them. What is behind a
semicolon says nothing of a size, but a size line is decoded as a text first, and its extension with
it.

* `Reader.Drive.Alike`: drives that a caller cannot tell apart;
* `Schedule.alike_of_decode_eq`: streams that are decoded alike are read alike;
* `Body.exists_extend_mem_sizeLines`: every size line has its counterpart;
* `decode_extend`: extensions make no difference where their lines are taken;
* `alike_extend_iff`: they make no difference exactly where they are UTF-8.
-/

namespace HttpRelay.Chunked

/-! ### Drives that come to the same -/

/-- Two drives that come to the same, and deliver the same data if that is the end of a body. -/
structure Reader.Drive.Alike (drive drive' : Reader.Drive) : Prop where
  outcome : drive.outcome = drive'.outcome
  payload : ∀ rest, drive.outcome = some (.ok rest) → drive.payload = drive'.payload

/-- Streams that are decoded alike are read alike, unless the body is cut short. -/
theorem Schedule.alike_of_decode_eq {stream stream' : Bytes} (h : decode stream = decode stream')
    (hwhole : (decode stream).result ≠ .error .unexpectedEof) (schedule : Schedule stream)
    (schedule' : Schedule stream') : schedule.drive.Alike schedule'.drive := by
  rcases schedule.drive_cases with
    ⟨rest, houtcome, hresult, hpayload⟩ | ⟨error, houtcome, hresult⟩ | ⟨-, hresult⟩
  · have hresult' : (decode stream').result = .ok rest := h ▸ hresult
    refine ⟨houtcome.trans (schedule'.outcome_eq_ok.mpr hresult').symm, fun _ _ => ?_⟩
    rw [hpayload, schedule'.payload_eq hresult', h]
  · have hresult' : (decode stream').result = .error error := h ▸ hresult
    have heof : error ≠ .unexpectedEof := by
      rintro rfl
      exact hwhole hresult
    have houtcome' := (schedule'.outcome_eq_failed heof).mpr hresult'
    refine ⟨houtcome.trans houtcome'.symm, fun rest hok => ?_⟩
    cases hok.symm.trans houtcome
  · exact absurd hresult hwhole

/-! ### Bodies with extensions -/

section Extending

variable {body : Body} {line : Line}

/-- Every size line of a body gives a size. -/
theorem Body.exists_spells_of_mem_sizeLines (h : line ∈ body.sizeLines) :
    ∃ size, Spells size line.text := by
  rcases List.mem_append.mp h with hchunk | hlast
  · obtain ⟨chunk, -, rfl⟩ := List.mem_map.mp hchunk
    exact ⟨_, chunk.spells⟩
  · obtain rfl := List.mem_singleton.mp hlast
    exact ⟨0, body.spells⟩

/-- An extension makes a line longer. -/
theorem Line.length_bytes_le_extend (line : Line) (extension : Option Extension) :
    line.bytes.length ≤ (line.extend extension).bytes.length := by
  cases extension with
  | none => exact Nat.le_refl _
  | some extension =>
    simp only [Line.extend, Line.bytes, List.length_append]
    omega

theorem exists_extend_mem_extendChunks {chunks : List Chunk} {chunk : Chunk} (h : chunk ∈ chunks)
    (extensions : List (Option Extension)) :
    ∃ extension, chunk.extend extension ∈ extendChunks chunks extensions := by
  induction chunks generalizing extensions with
  | nil => cases h
  | cons first chunks ih =>
    cases extensions with
    | nil => exact ⟨none, h⟩
    | cons extension extensions =>
      rcases List.mem_cons.mp h with rfl | h
      · exact ⟨extension, List.mem_cons_self⟩
      · obtain ⟨extension', hmem⟩ := ih h extensions
        exact ⟨extension', List.mem_cons_of_mem _ hmem⟩

/-- Every size line is there with its extension. -/
theorem Body.exists_extend_mem_sizeLines (h : line ∈ body.sizeLines)
    (extensions : List (Option Extension)) (closing : Option Extension) :
    ∃ extension, line.extend extension ∈ (body.extend extensions closing).sizeLines := by
  rcases List.mem_append.mp h with hchunk | hlast
  · obtain ⟨chunk, hmem, rfl⟩ := List.mem_map.mp hchunk
    obtain ⟨extension, hextend⟩ := exists_extend_mem_extendChunks hmem extensions
    exact ⟨extension, List.mem_append_left _ (List.mem_map_of_mem hextend)⟩
  · obtain rfl := List.mem_singleton.mp hlast
    exact ⟨closing, List.mem_append_right _ List.mem_cons_self⟩

theorem flatMap_data_extendChunks (chunks : List Chunk) (extensions : List (Option Extension)) :
    (extendChunks chunks extensions).flatMap Chunk.data = chunks.flatMap Chunk.data := by
  induction chunks generalizing extensions with
  | nil => rfl
  | cons chunk chunks ih =>
    cases extensions with
    | nil => rfl
    | cons extension extensions =>
      rw [extendChunks, List.flatMap_cons, List.flatMap_cons, ih]
      rfl

/-- Extensions are no data. -/
theorem Body.payload_extend (body : Body) (extensions : List (Option Extension))
    (closing : Option Extension) : (body.extend extensions closing).payload = body.payload :=
  flatMap_data_extendChunks body.chunks extensions

variable {extensions : List (Option Extension)} {closing : Option Extension}

/-- A body without extensions has size lines that are taken, if extensions could be put on them
within the limit. -/
theorem taken_of_extend (hplain : ∀ line ∈ body.sizeLines, semicolon ∉ line.text)
    (hfits : ∀ line ∈ (body.extend extensions closing).sizeLines, line.Fits) :
    ∀ line ∈ body.sizeLines, line.Taken := by
  intro line hline
  obtain ⟨extension, hextend⟩ := body.exists_extend_mem_sizeLines hline extensions closing
  obtain ⟨size, hspells⟩ := Body.exists_spells_of_mem_sizeLines hline
  refine ⟨?_, legible_of_no_extension hspells (hplain line hline)⟩
  exact (line.length_bytes_le_extend extension).trans (hfits _ hextend)

/-- Extensions make no difference where their lines are taken. -/
theorem decode_extend (htaken : ∀ line ∈ body.sizeLines, line.Taken)
    (hextended : ∀ line ∈ (body.extend extensions closing).sizeLines, line.Taken)
    (after : Bytes) :
    decode (body.bytes ++ after) = decode ((body.extend extensions closing).bytes ++ after) := by
  rw [decode_body_of_taken htaken, decode_body_of_taken hextended, Body.payload_extend]
  rfl

/-- Extensions within the limit are ignored exactly if the lines are UTF-8 with them: the body comes
to the same with them and without them, in any ways of reading. -/
theorem alike_extend_iff (hplain : ∀ line ∈ body.sizeLines, semicolon ∉ line.text)
    (hlimit : ∀ line ∈ (body.extend extensions closing).sizeLines,
      line.content.length ≤ maxLineLength)
    {after : Bytes} (schedule : Schedule (body.bytes ++ after))
    (schedule' : Schedule ((body.extend extensions closing).bytes ++ after)) :
    schedule.drive.Alike schedule'.drive ↔
      ∀ line ∈ (body.extend extensions closing).sizeLines, line.Legible := by
  have hfits : ∀ line ∈ (body.extend extensions closing).sizeLines, line.Fits :=
    fun line hline => line.fits_iff.mpr (.inl (hlimit line hline))
  have htaken := taken_of_extend hplain hfits
  have hdecode := decode_body_of_taken htaken after
  -- without extensions, nothing but the trailers can be wrong
  have htrailers := takeTrailers_cases body.trailers body.ending maxTrailerLines after
  constructor
  · -- a line that is not UTF-8 is refused as no size, which no body without extensions is
    intro halike
    by_contra hillegible
    have hnot : ¬ ∀ line ∈ (body.extend extensions closing).sizeLines, line.Taken :=
      fun hall => hillegible fun line hline => (hall line hline).legible
    obtain ⟨text, hresult⟩ := decode_body_of_not_taken hnot after
    have houtcome := (schedule'.outcome_eq_failed (by simp)).mpr hresult
    rw [← halike.outcome, schedule.outcome_eq_failed (by simp), hdecode] at houtcome
    rcases htrailers with ⟨rest, hrest⟩ | ⟨error, herror, rfl | rfl⟩
    · cases hrest.symm.trans houtcome
    · cases herror.symm.trans houtcome
    · cases herror.symm.trans houtcome
  · intro hlegible
    refine Schedule.alike_of_decode_eq (decode_extend htaken (fun line hline =>
      ⟨hfits line hline, hlegible line hline⟩) after) ?_ schedule schedule'
    rw [hdecode]
    rcases htrailers with ⟨rest, hrest⟩ | ⟨error, herror, rfl | rfl⟩
    · exact fun heof => nomatch hrest.symm.trans heof
    · exact fun heof => nomatch herror.symm.trans heof
    · exact fun heof => nomatch herror.symm.trans heof

end Extending

/-- A body of one chunk, without trailers. -/
def helloBody : Body :=
  { bodyWithTrailers 0 with
    chunks :=
      [{ size := writtenLine 5
         data := [104, 101, 108, 108, 111]
         ending := .crlf
         spells := writtenLine_spells (by decide)
         nonempty := List.cons_ne_nil _ _ }] }

/-- A quoted extension with a semicolon and a stray carriage return in it. -/
def quotedExtension : Extension := ⟨Bytes.ofText "a=\";\rb\"", by decide⟩

/-- An extension that is not UTF-8. -/
def illegibleExtension : Extension := ⟨[0xff], by decide⟩

/-- A quoted extension on the chunk, and an empty one on the closing chunk, in front of another
request. -/
theorem alike_extend_quoted :
    (Schedule.bytewise (helloBody.bytes ++ Bytes.ofText "GET") false).drive.Alike
      (Schedule.bytewise ((helloBody.extend [some quotedExtension] (some ⟨[], by simp⟩)).bytes ++
        Bytes.ofText "GET") true).drive :=
  (alike_extend_iff (by decide) (by decide) _ _).mpr (by decide +kernel)

/-- An extension that is not UTF-8 makes a body invalid. -/
theorem not_alike_extend_illegible :
    let drive := (Schedule.bytewise (helloBody.bytes ++ []) true).drive
    let drive' := (Schedule.bytewise
      ((helloBody.extend [some illegibleExtension] none).bytes ++ []) true).drive
    (helloBody.extend [some illegibleExtension] none).bytes =
        Bytes.ofText "5;" ++ [0xff] ++ Bytes.ofText "\r\nhello\r\n0\r\n\r\n" ∧
      drive.outcome = some (.ok []) ∧ drive.payload = Bytes.ofText "hello" ∧
      drive'.outcome = some (.error (.failed (.invalidSize "5;\uFFFD"))) ∧
      ¬ drive.Alike drive' := by
  intro drive drive'
  have houtcome : drive.outcome = some (.ok []) := by decide +kernel
  have houtcome' : drive'.outcome = some (.error (.failed (.invalidSize "5;\uFFFD"))) := by
    decide +kernel
  refine ⟨by decide, houtcome, by decide +kernel, houtcome', fun halike => ?_⟩
  cases houtcome.symm.trans (halike.outcome.trans houtcome')

end HttpRelay.Chunked
