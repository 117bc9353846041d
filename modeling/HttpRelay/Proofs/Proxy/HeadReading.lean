import HttpRelay.Proofs.Http.HeadScanning
import HttpRelay.Proofs.Transport.Buffered
import HttpRelay.Proxy.HeadReader

/-!
# Where a head that is read ends

A head is read line by line and scanned byte by byte, and both find the same end of it: its first
empty line.

* `readHeadWithin_line`: how one line of a head is read;
* `readHead_of_isHead`: a head is read through its first empty line, and nothing behind it;
* `isHead_of_readHead`: what is read at the end of a stream is a head of it;
* `readHead_ok`: what is read in the midst of a stream;
* `readHead_agrees`: both at once, with what the scans make of the head.
-/

namespace HttpRelay

open Bytes Http

namespace Bytes

theorem isEmptyLine_iff {line : Bytes} : Proxy.isEmptyLine line = true ↔ IsEmptyLine line := by
  simp [Proxy.isEmptyLine, IsEmptyLine, or_comm]

theorem IsEmptyLine.isLine {line : Bytes} (h : IsEmptyLine line) : IsLine line := by
  rcases h with rfl | rfl
  · exact ⟨[], by simp, rfl⟩
  · exact ⟨[cr], by simp [cr, lf], rfl⟩

theorem IsLine.length_pos {line : Bytes} (h : IsLine line) : 0 < line.length := by
  obtain ⟨text, -, rfl⟩ := h
  simp

/-- What is read short of its limit is a line, or all that there is. -/
theorem isLine_lineWithin {limit : Nat} {bytes rest : Bytes}
    (hrest : lineWithin limit bytes ++ rest = bytes)
    (hlimit : (lineWithin limit bytes).length < limit) :
    IsLine (lineWithin limit bytes) ∨ rest = [] := by
  by_cases hmem : lf ∈ bytes.take limit
  · obtain ⟨text, more, hsplit, htext⟩ := exists_line_of_mem hmem
    refine .inl ⟨text, htext, ?_⟩
    rw [lineWithin, hsplit, fst_splitLine_append htext]
  · have hall : lineWithin limit bytes = bytes.take limit := by
      have htaken := fst_splitLine_append_of_not_mem hmem []
      rw [List.append_nil, fst_splitLine_eq []] at htaken
      simpa [lineWithin] using htaken
    have hlength := congrArg List.length hall
    have hwhole := congrArg List.length hrest
    rw [List.length_take] at hlength
    rw [List.length_append] at hwhole
    exact .inr (List.length_eq_zero_iff.mp (by omega))

end Bytes

namespace Proxy

variable {b : Buffered} {taken : Nat} {reversed : Bytes}

/-- How one line of a head is read that keeps the head within its limit. -/
theorem readHeadWithin_line (taken : Nat) (reversed : Bytes) {line more : Bytes}
    (hline : IsLine line) (hpending : b.pending = line ++ more)
    (hsize : taken + line.length ≤ maxHeadLength) :
    ∃ b', b'.pending = more ∧ b'.pending.length < b.pending.length ∧
      ∀ lines, readHeadWithin taken reversed b (lines + 1) =
        if isEmptyLine line then
          if taken = 0 then readHeadWithin 0 [] b' lines
          else (.ok (some (reversed.reverse ++ line)), b')
        else readHeadWithin (taken + line.length) (line.reverse ++ reversed) b' lines := by
  obtain ⟨text, htext, rfl⟩ := hline
  have hlength : (text ++ [lf]).length = text.length + 1 := by simp
  obtain ⟨b', hread, hrest⟩ :=
    Buffered.readLine_eq (ε := Error) htext (by simpa using hpending)
      (show text.length < maxHeadLength + 1 - taken by omega)
  refine ⟨b', hrest, ?_, fun lines => ?_⟩
  · rw [hpending, hrest, List.length_append]
    omega
  · rw [readHeadWithin, hread]
    dsimp only
    rw [if_neg (by simp), if_neg (by omega), List.reverse_append, List.reverse_reverse]

/-- The lines of a head behind its first one are read through the first empty one. -/
theorem readHeadWithin_endsHead (reversed : Bytes) {behind rest : Bytes}
    (hbehind : EndsHead behind) (hpending : b.pending = behind ++ rest) (htaken : 0 < taken)
    (hsize : taken + behind.length ≤ maxHeadLength) {lines : Nat}
    (hlines : b.pending.length < lines) :
    ∃ b', readHeadWithin taken reversed b lines =
      (.ok (some (reversed.reverse ++ behind)), b') ∧ b'.pending = rest := by
  -- every line takes a byte at least, so that the lines that may be read do not run out
  obtain ⟨lines, rfl⟩ := Nat.exists_eq_succ_of_ne_zero (Nat.ne_zero_of_lt hlines)
  induction hbehind generalizing b taken reversed lines with
  | last hempty =>
    obtain ⟨b', hrest, -, hread⟩ :=
      readHeadWithin_line taken reversed hempty.isLine hpending hsize
    refine ⟨b', ?_, hrest⟩
    rw [hread, if_pos (isEmptyLine_iff.mpr hempty), if_neg (by omega)]
  | @line line behind hline hsome _ ih =>
    rw [List.append_assoc] at hpending
    rw [List.length_append] at hsize
    obtain ⟨b', hrest, hshorter, hread⟩ :=
      readHeadWithin_line taken reversed hline hpending (by omega)
    have hlines' : b'.pending.length < lines := by omega
    obtain ⟨lines, rfl⟩ := Nat.exists_eq_succ_of_ne_zero (Nat.ne_zero_of_lt hlines')
    obtain ⟨b'', hreads, hrest'⟩ :=
      @ih b' (taken + line.length) (line.reverse ++ reversed) hrest (by omega) (by omega) lines
        hlines'
    refine ⟨b'', ?_, hrest'⟩
    rw [hread, if_neg fun hempty => hsome (isEmptyLine_iff.mp hempty), hreads]
    simp

/-- A head is read behind the empty lines in front of it, and nothing behind it is taken. -/
theorem readHead_of_isHead {skipped : List Bytes} {head rest : Bytes}
    (hskipped : ∀ line ∈ skipped, IsEmptyLine line) (hhead : IsHead head)
    (hsize : head.length ≤ maxHeadLength)
    (hpending : b.pending = skipped.flatten ++ head ++ rest) {lines : Nat}
    (hlines : b.pending.length < lines) :
    ∃ b', readHeadWithin 0 [] b lines = (.ok (some head), b') ∧ b'.pending = rest := by
  obtain ⟨lines, rfl⟩ := Nat.exists_eq_succ_of_ne_zero (Nat.ne_zero_of_lt hlines)
  induction skipped generalizing b lines with
  | nil =>
    obtain ⟨first, behind, rfl, hfirst, hsome, hbehind⟩ := hhead
    rw [List.flatten_nil, List.nil_append, List.append_assoc] at hpending
    rw [List.length_append] at hsize
    obtain ⟨b', hrest, hshorter, hread⟩ := readHeadWithin_line 0 [] hfirst hpending (by omega)
    obtain ⟨b'', hreads, hrest'⟩ :=
      readHeadWithin_endsHead first.reverse hbehind hrest hfirst.length_pos hsize
        (show b'.pending.length < lines by omega)
    refine ⟨b'', ?_, hrest'⟩
    rw [hread, if_neg fun hempty => hsome (isEmptyLine_iff.mp hempty), Nat.zero_add,
      List.append_nil, hreads, List.reverse_reverse]
  | cons line skipped ih =>
    have hempty := hskipped line List.mem_cons_self
    rw [List.flatten_cons, List.append_assoc, List.append_assoc, ← List.append_assoc _ head]
      at hpending
    obtain ⟨b', hrest, hshorter, hread⟩ :=
      readHeadWithin_line 0 [] hempty.isLine hpending (by rcases hempty with rfl | rfl <;> decide)
    have hlines' : b'.pending.length < lines := by omega
    obtain ⟨lines, rfl⟩ := Nat.exists_eq_succ_of_ne_zero (Nat.ne_zero_of_lt hlines')
    rw [hread, if_pos (isEmptyLine_iff.mpr hempty), if_pos rfl]
    exact ih (fun line hline => hskipped line (List.mem_cons_of_mem _ hline)) hrest lines hlines'

/-- No head is read at the end of a stream. -/
theorem readHeadWithin_of_nil (hclosed : b.feed.closed = true) (hpending : b.pending = [])
    {lines : Nat} {head : Bytes} :
    (readHeadWithin taken reversed b lines).1 ≠ .ok (some head) := by
  cases lines with
  | zero => simp [readHeadWithin]
  | succ lines =>
    obtain ⟨b₁, hline, -⟩ :=
      Buffered.readLineFrom_eq (ε := Error) [] (maxHeadLength + 1 - taken) (.inl hclosed)
    rw [readHeadWithin, Buffered.readLine, hline, hpending, lineWithin_nil]
    by_cases hfirst : taken = 0 <;> simp [hfirst]

/-- What the first line was, if a head is read off a stream that has arrived to its end. -/
theorem readHeadWithin_cases {b' : Buffered} {head : Bytes} {lines : Nat}
    (hread : readHeadWithin taken reversed b (lines + 1) = (.ok (some head), b'))
    (hclosed : b.feed.closed = true) :
    ∃ line b₁, b.pending = line ++ b₁.pending ∧ b₁.feed.closed = true ∧
      taken + line.length ≤ maxHeadLength ∧ IsLine line ∧
      ((IsEmptyLine line ∧ taken = 0 ∧ readHeadWithin 0 [] b₁ lines = (.ok (some head), b')) ∨
        (IsEmptyLine line ∧ 0 < taken ∧ head = reversed.reverse ++ line ∧ b' = b₁) ∨
        (¬ IsEmptyLine line ∧
          readHeadWithin (taken + line.length) (line.reverse ++ reversed) b₁ lines =
            (.ok (some head), b'))) := by
  obtain ⟨b₁, hline, hrest, hclosed'⟩ :=
    Buffered.readLineFrom_eq (ε := Error) [] (maxHeadLength + 1 - taken) (.inl hclosed)
  obtain ⟨line, hwithin⟩ : ∃ line, lineWithin (maxHeadLength + 1 - taken) b.pending = line :=
    ⟨_, rfl⟩
  rw [hwithin] at hrest hline
  have hfirstLine : b.readLine (maxHeadLength + 1 - taken) = (.ok line, b₁) := hline
  rw [readHeadWithin, hfirstLine] at hread
  dsimp only at hread
  by_cases hsome : line.isEmpty = true
  · rw [if_pos hsome] at hread
    by_cases hfirst : taken = 0 <;> simp [hfirst] at hread
  rw [if_neg hsome] at hread
  by_cases hlong : maxHeadLength < taken + line.length
  · rw [if_pos hlong] at hread
    cases (Prod.mk.inj hread).1
  rw [if_neg hlong] at hread
  refine ⟨line, b₁, hrest.symm, hclosed'.trans hclosed, by omega, ?_⟩
  by_cases hempty : isEmptyLine line = true
  · -- in front of the head it is skipped, and behind a line it is the last one
    rw [if_pos hempty] at hread
    have hline := isEmptyLine_iff.mp hempty
    refine ⟨hline.isLine, ?_⟩
    by_cases hfirst : taken = 0
    · rw [if_pos hfirst] at hread
      exact .inl ⟨hline, hfirst, hread⟩
    · rw [if_neg hfirst] at hread
      obtain ⟨hhead, rfl⟩ := Prod.mk.inj hread
      refine .inr (.inl ⟨hline, Nat.pos_of_ne_zero hfirst, ?_, rfl⟩)
      simpa using (Option.some.inj (Except.ok.inj hhead)).symm
  · rw [if_neg hempty] at hread
    refine ⟨?_, .inr (.inr ⟨fun hline => hempty (isEmptyLine_iff.mpr hline), hread⟩)⟩
    subst hwithin
    -- a line cut off by the end of the stream would be the last thing that is read
    refine (isLine_lineWithin hrest (by omega)).resolve_right fun hend => ?_
    refine absurd (congrArg Prod.fst hread) ?_
    exact readHeadWithin_of_nil (hclosed'.trans hclosed) hend

/-- What is read behind some lines of a head is the rest of the head. -/
theorem endsHead_of_readHeadWithin {b' : Buffered} {head : Bytes} {lines : Nat}
    (hread : readHeadWithin taken reversed b lines = (.ok (some head), b'))
    (hclosed : b.feed.closed = true) (htaken : 0 < taken) (hlength : taken = reversed.length) :
    ∃ behind, EndsHead behind ∧ b.pending = behind ++ b'.pending ∧
      head = reversed.reverse ++ behind ∧ taken + behind.length ≤ maxHeadLength := by
  induction lines generalizing b taken reversed with
  | zero => cases (Prod.mk.inj hread).1
  | succ lines ih =>
    obtain ⟨line, b₁, hpending, hclosed', hsize, hline, hcases⟩ :=
      readHeadWithin_cases hread hclosed
    rcases hcases with ⟨-, hfirst, -⟩ | ⟨hempty, -, rfl, rfl⟩ | ⟨hsome, hread'⟩
    · omega
    · exact ⟨line, .last hempty, hpending, rfl, hsize⟩
    · obtain ⟨behind, hbehind, hrest, rfl, hsize'⟩ :=
        ih hread' hclosed' (by omega) (by simp [hlength, Nat.add_comm])
      refine ⟨line ++ behind, .line hline hsome hbehind, ?_, by simp, ?_⟩
      · rw [hpending, hrest, List.append_assoc]
      · rw [List.length_append]
        omega

/-- What is read at the end of a stream is a head of it, behind empty lines. -/
theorem isHead_of_readHead {b' : Buffered} {head : Bytes} {lines : Nat}
    (hread : readHeadWithin 0 [] b lines = (.ok (some head), b'))
    (hclosed : b.feed.closed = true) :
    ∃ skipped : List Bytes, (∀ line ∈ skipped, IsEmptyLine line) ∧
      b.pending = skipped.flatten ++ head ++ b'.pending ∧ IsHead head ∧
      head.length ≤ maxHeadLength := by
  induction lines generalizing b with
  | zero => cases (Prod.mk.inj hread).1
  | succ lines ih =>
    obtain ⟨line, b₁, hpending, hclosed', hsize, hline, hcases⟩ :=
      readHeadWithin_cases hread hclosed
    rcases hcases with ⟨hempty, -, hread'⟩ | ⟨-, hbehind, -⟩ | ⟨hsome, hread'⟩
    · obtain ⟨skipped, hskipped, hrest, hhead⟩ := ih hread' hclosed'
      refine ⟨line :: skipped, ?_, ?_, hhead⟩
      · simpa [hempty] using hskipped
      · rw [hpending, hrest, List.flatten_cons]
        simp
    · omega
    · have hpos := hline.length_pos
      obtain ⟨behind, hbehind, hrest, rfl, hsize'⟩ :=
        endsHead_of_readHeadWithin hread' hclosed' (by omega) (by simp)
      refine ⟨[], by simp, ?_, ⟨line, behind, by simp, hline, hsome, hbehind⟩, ?_⟩
      · rw [hpending, hrest]
        simp
      · rw [List.length_append]
        simp
        omega

/-- What is read of a head, with the empty lines in front of it, is what is no longer pending,
whether more input may come or not. -/
theorem readHeadWithin_ok {b' : Buffered} {head : Bytes} {lines : Nat}
    (hbegun : taken = 0 → reversed = [])
    (hread : readHeadWithin taken reversed b lines = (.ok (some head), b')) :
    ∃ skipped : List Bytes, (∀ line ∈ skipped, IsEmptyLine line) ∧ (0 < taken → skipped = []) ∧
      reversed.reverse ++ b.pending = skipped.flatten ++ head ++ b'.pending := by
  induction lines generalizing b taken reversed with
  | zero => cases (Prod.mk.inj hread).1
  | succ lines ih =>
    rw [readHeadWithin] at hread
    rcases hline : (b.readLine (maxHeadLength + 1 - taken) : Except (Halt Error) Bytes × Buffered)
      with ⟨halt | line, b₁⟩
    · rw [hline] at hread
      cases (Prod.mk.inj hread).1
    rw [hline] at hread
    dsimp only at hread
    have hpending := Buffered.readLine_ok hline
    have hjoined : reversed.reverse ++ b.pending =
        (line.reverse ++ reversed).reverse ++ b₁.pending := by
      rw [hpending]
      simp
    split at hread
    next =>
      split at hread
      · cases Except.ok.inj (Prod.mk.inj hread).1
      · cases (Prod.mk.inj hread).1
    next hsome =>
      have hlength : line.length ≠ 0 :=
        mt List.length_eq_zero_iff.mp (mt List.isEmpty_iff.mpr hsome)
      split at hread
      next => cases (Prod.mk.inj hread).1
      next =>
        split at hread
        next hempty =>
          split at hread
          next hzero =>
            -- an empty line in front of the head is passed over
            obtain ⟨skipped, hskipped, -, hsplit⟩ := ih (fun _ => rfl) hread
            refine ⟨line :: skipped, ?_, fun hpos => absurd hzero (by omega), ?_⟩
            · exact List.forall_mem_cons.mpr ⟨isEmptyLine_iff.mp hempty, hskipped⟩
            · rw [hbegun hzero, hpending]
              simpa using hsplit
          next =>
            -- an empty line behind it ends it
            obtain ⟨hhead, rfl⟩ := Prod.mk.inj hread
            obtain rfl := Option.some.inj (Except.ok.inj hhead)
            exact ⟨[], by simp, fun _ => rfl, hjoined⟩
        next =>
          obtain ⟨skipped, -, hnone, hsplit⟩ := ih (by omega) hread
          obtain rfl := hnone (by omega)
          exact ⟨[], by simp, fun _ => rfl, hjoined.trans hsplit⟩

theorem readHead_ok {b' : Buffered} {head : Bytes} (hread : readHead b = (.ok (some head), b')) :
    ∃ skipped : List Bytes, (∀ line ∈ skipped, IsEmptyLine line) ∧
      b.pending = skipped.flatten ++ head ++ b'.pending := by
  obtain ⟨skipped, hskipped, -, hsplit⟩ := readHeadWithin_ok (fun _ => rfl) hread
  exact ⟨skipped, hskipped, hsplit⟩

theorem parsed_eq_ok {α : Type} {result : Except HeadError α} {a : α}
    (h : parsed result = .ok a) : result = .ok a := by
  cases result with
  | error error => cases h
  | ok value =>
    obtain rfl := Except.ok.inj h
    rfl

/-- The head of a request is what the bytes mean that are read. -/
theorem readRequestHead_ok {request : RequestHead}
    (hread : (readRequestHead b).1 = .ok (some request)) :
    ∃ raw, readHead b = (.ok (some raw), (readRequestHead b).2) ∧
      RequestHead.parse raw = .ok request := by
  obtain ⟨raw, hraw, hparsed⟩ := Outcome.bind_eq_ok.mp hread
  cases raw with
  | none => cases hparsed
  | some raw =>
    obtain ⟨head, hhead, hvalue⟩ := Outcome.bind_eq_ok.mp hparsed
    obtain rfl := Option.some.inj (Except.ok.inj hvalue)
    exact ⟨raw, Prod.ext hraw rfl, parsed_eq_ok hhead⟩

/-- The head of a response is what the bytes mean that are read. -/
theorem readResponseHead_ok {response : ResponseHead}
    (hread : (readResponseHead b).1 = .ok response) :
    ∃ raw, readHead b = (.ok (some raw), (readResponseHead b).2) ∧
      ResponseHead.parse raw = .ok response := by
  obtain ⟨raw, hraw, hparsed⟩ := Outcome.bind_eq_ok.mp hread
  cases raw with
  | none => cases hparsed
  | some raw => exact ⟨raw, Prod.ext hraw rfl, parsed_eq_ok hparsed⟩

/-- Reading gives a head and leaves what is behind it exactly if the stream is empty lines, the
head and that. -/
def ReadsHead (capacity : Buffered.Capacity) (stream head rest : Bytes) : Prop :=
  (∃ b, readHead (.ofFeed (.complete stream) capacity) = (.ok (some head), b) ∧
      b.pending = rest) ↔
    ∃ skipped : List Bytes, (∀ line ∈ skipped, IsEmptyLine line) ∧
      stream = skipped.flatten ++ head ++ rest ∧ IsHead head ∧ head.length ≤ maxHeadLength

/-- Through any read-ahead, reading ends a head where its lines end, and the scans of both kinds end
it there too: neither wants for bytes on it, and neither leaves any. -/
theorem readHead_agrees (capacity : Buffered.Capacity) (stream head rest : Bytes) :
    ReadsHead capacity stream head rest ∧
      (IsHead head →
        (RequestHead.parse head ≠ .error (.incomplete .request) ∧
          ∀ request, RequestHead.parse head = .ok request →
            RequestHead.scan.run head = .ok (request, [])) ∧
        (ResponseHead.parse head ≠ .error (.incomplete .response) ∧
          ∀ response, ResponseHead.parse head = .ok response →
            ResponseHead.scan.run head = .ok (response, []))) := by
  refine ⟨⟨?_, ?_⟩, fun hhead => ⟨?_, ?_⟩⟩
  · rintro ⟨b, hread, rfl⟩
    exact isHead_of_readHead hread rfl
  · rintro ⟨skipped, hskipped, hstream, hhead, hsize⟩
    exact readHead_of_isHead (b := .ofFeed (.complete stream) capacity) hskipped hhead hsize
      hstream (Nat.lt_succ_self _)
  · exact (RequestHead.settles_scan hhead).toHead_whole .request
  · exact (ResponseHead.settles_scan hhead).toHead_whole .response

/-- A head behind an empty line is read byte by byte, and its body is left. -/
theorem readHead_agrees_behind_empty_line :
    (∃ b, readHead (.ofFeed (.complete (ofText "\r\nGET / HTTP/1.1\nHost: a\r\n\r\nbody")) 1) =
        (.ok (some (ofText "GET / HTTP/1.1\nHost: a\r\n\r\n")), b) ∧ b.pending = ofText "body") ∧
      RequestHead.parse (ofText "GET / HTTP/1.1\nHost: a\r\n\r\n") ≠
        .error (.incomplete .request) := by
  have hhead : IsHead (ofText "GET / HTTP/1.1\nHost: a\r\n\r\n") := by
    refine ⟨ofText "GET / HTTP/1.1\n", ofText "Host: a\r\n" ++ crlf, by decide +kernel, ?_, ?_, ?_⟩
    · exact ⟨ofText "GET / HTTP/1.1", by decide +kernel, by decide +kernel⟩
    · rintro (h | h) <;> exact absurd h (by decide +kernel)
    · refine .line ⟨ofText "Host: a\r", by decide +kernel, by decide +kernel⟩ ?_ (.last (.inr rfl))
      rintro (h | h) <;> exact absurd h (by decide +kernel)
  obtain ⟨hreads, hscans⟩ := readHead_agrees 1
    (ofText "\r\nGET / HTTP/1.1\nHost: a\r\n\r\nbody")
    (ofText "GET / HTTP/1.1\nHost: a\r\n\r\n") (ofText "body")
  refine ⟨hreads.mpr ⟨[crlf], ?_, by decide +kernel, hhead, by decide +kernel⟩, (hscans hhead).1.1⟩
  simp [IsEmptyLine]

end Proxy

end HttpRelay
