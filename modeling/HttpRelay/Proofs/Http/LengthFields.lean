import HttpRelay.Http.Head
import HttpRelay.Proofs.Http.FieldLookup
import HttpRelay.Proofs.Outcome
import HttpRelay.Proofs.Text.Numerals

/-!
# Reading of lengths

Which Content-Length fields frame a body, and with which length. The grammar asks for digits with
spaces and tabs around them. The fields are read with more indulgence: any blank characters may
stand around an element, and a plus sign in front of its digits.

* `foldlM_agree_iff`: when values in a row agree on a number;
* `Headers.StatesLength`, `Headers.AdmitsLength`: what the grammar asks for, and what is taken;
* `framing_eq_lengthKind_iff`: the fields that frame a body with a length;
* `framing_length_strict_iff`: when these are the fields that state the length.
-/

namespace HttpRelay.Http

open Outcome

/-- Where every step agrees a number with those so far, some steps in a row agree one number. -/
theorem foldlM_agree_iff {ε β : Type} {f : Option Nat → β → Except ε (Option Nat)}
    {Tells : β → Nat → Prop}
    (hf : ∀ soFar b found, f soFar b = .ok found ↔
      ∃ n, found = some n ∧ soFar.all (· == n) = true ∧ Tells b n)
    {bs : List β} (hne : bs ≠ []) (soFar found : Option Nat) :
    bs.foldlM f soFar = .ok found ↔
      ∃ n, found = some n ∧ soFar.all (· == n) = true ∧ ∀ b ∈ bs, Tells b n := by
  -- the number so far changes with every step, and only its agreement with the next one matters
  induction bs generalizing soFar with
  | nil => exact absurd rfl hne
  | cons b bs ih =>
    rw [List.foldlM_cons, bind_eq_ok]
    cases bs with
    | nil => simp [hf]
    | cons b' bs =>
      simp only [hf, ih (List.cons_ne_nil b' bs), List.mem_cons, forall_eq_or_imp]
      constructor
      · rintro ⟨_, ⟨m, rfl, hsoFar, hb⟩, n, rfl, hsame, hbs⟩
        obtain rfl : m = n := by simpa using hsame
        exact ⟨m, rfl, hsoFar, hb, hbs⟩
      · rintro ⟨n, rfl, hsoFar, hb, hbs⟩
        exact ⟨some n, ⟨n, rfl, hsoFar, hb⟩, n, rfl, by simp, hbs⟩

/-- A further field agrees with the length so far exactly if each of its elements does. -/
theorem agreeLength_eq_ok_iff (soFar : Option Nat) (value : String) (found : Option Nat) :
    agreeLength soFar value = .ok found ↔
      ∃ n, found = some n ∧ soFar.all (· == n) = true ∧
        ∀ element ∈ Text.listElements value, Text.unsigned? UInt64.size element = some n := by
  refine foldlM_agree_iff (fun soFar element found => ?_) (Text.listElements_ne_nil value) _ _
  cases hread : Text.unsigned? UInt64.size element with
  | none => simp
  | some n =>
    dsimp only
    by_cases hsoFar : soFar.all (· == n) = true
    · rw [if_pos hsoFar, Except.ok.injEq]
      constructor
      · rintro rfl
        exact ⟨n, rfl, hsoFar, rfl⟩
      · rintro ⟨_, rfl, -, hsame⟩
        exact hsame
    · rw [if_neg hsoFar]
      constructor
      · exact nofun
      · rintro ⟨_, -, hagreed, hsame⟩
        exact absurd (Option.some.inj hsame ▸ hagreed) hsoFar

/-- The kind of a body of some length. -/
def lengthKind (n : Nat) : BodyKind := if n = 0 then .empty else .contentLength n

theorem lengthKind_inj {m n : Nat} : lengthKind m = lengthKind n ↔ m = n := by
  by_cases hm : m = 0 <;> by_cases hn : n = 0 <;> simp [lengthKind, hm, hn, eq_comm]

namespace Headers

variable {h : Headers} {n : Nat}

/-- The elements of the length fields, as they stand between the commas. -/
def lengthElements (h : Headers) : List String :=
  (h.getAll "content-length").flatMap (Text.splitAtChar ',')

/-- There are length fields, and each of their elements is the one number that fits a word, in
digits with spaces and tabs around them. -/
def StatesLength (h : Headers) (n : Nat) : Prop :=
  h.getAll "content-length" ≠ [] ∧ ∀ element ∈ h.lengthElements,
    n < UInt64.size ∧ Text.IsNumeral Text.isSpaceOrTab [] n element

/-- There are length fields, and each of their elements is the one number that fits a word, in
digits with blanks around them and perhaps a plus sign in front. -/
def AdmitsLength (h : Headers) (n : Nat) : Prop :=
  h.getAll "content-length" ≠ [] ∧ ∀ element ∈ h.lengthElements,
    n < UInt64.size ∧
      (Text.IsNumeral Text.isBlank [] n element ∨ Text.IsNumeral Text.isBlank ['+'] n element)

instance (h : Headers) (n : Nat) : Decidable (h.StatesLength n) :=
  inferInstanceAs (Decidable (_ ∧ ∀ element ∈ h.lengthElements, _ ∧ _))

theorem StatesLength.admits (hstates : h.StatesLength n) : h.AdmitsLength n :=
  ⟨hstates.1, fun element helement =>
    ⟨(hstates.2 element helement).1, .inl (hstates.2 element helement).2.blank⟩⟩

/-- What the elements of a field are read as, by the elements as they stand in it. -/
theorem forall_mem_listElements_iff (h : Headers) (n : Nat) :
    (∀ value ∈ h.getAll "content-length", ∀ element ∈ Text.listElements value,
        Text.unsigned? UInt64.size element = some n) ↔
      ∀ element ∈ h.lengthElements, n < UInt64.size ∧
        (Text.IsNumeral Text.isBlank [] n element ∨
          Text.IsNumeral Text.isBlank ['+'] n element) := by
  simp only [lengthElements, List.forall_mem_flatMap, Text.listElements, List.forall_mem_map,
    Text.unsigned?_trim_eq_some_iff]

/-- The fields that agree on a length are those that admit one. -/
theorem foldlM_agreeLength_eq_ok_iff (hsome : h.getAll "content-length" ≠ [])
    (found : Option Nat) :
    (h.getAll "content-length").foldlM agreeLength none = .ok found ↔
      ∃ n, found = some n ∧ h.AdmitsLength n := by
  rw [foldlM_agree_iff agreeLength_eq_ok_iff hsome]
  refine exists_congr fun n => and_congr_right fun _ => ?_
  rw [forall_mem_listElements_iff, AdmitsLength]
  simp [hsome]

variable (hcoding : h.getAll "transfer-encoding" = [])

include hcoding

/-- Without length fields there is no framing. -/
theorem framing_of_no_length (hnone : h.getAll "content-length" = []) : h.framing = .ok none := by
  rw [framing_of_no_coding hcoding, hnone]
  rfl

/-- The fields that frame a body with a length are those that admit it. -/
theorem framing_eq_lengthKind_iff :
    h.framing = .ok (some (lengthKind n)) ↔ h.AdmitsLength n := by
  by_cases hnone : h.getAll "content-length" = []
  · rw [framing_of_no_length hcoding hnone]
    exact ⟨nofun, fun hadmits => absurd hnone hadmits.1⟩
  · rw [framing_of_no_coding hcoding]
    constructor
    · intro hframing
      cases hfold : (h.getAll "content-length").foldlM agreeLength none with
      | error error =>
        rw [hfold] at hframing
        cases hframing
      | ok found =>
        obtain ⟨m, rfl, hadmits⟩ := (foldlM_agreeLength_eq_ok_iff hnone found).mp hfold
        -- different lengths are of different kinds, zero included
        rw [hfold, map_ok, Except.ok.injEq, Option.map_some, Option.some.injEq] at hframing
        obtain rfl : m = n := lengthKind_inj.mp hframing
        exact hadmits
    · intro hadmits
      rw [(foldlM_agreeLength_eq_ok_iff hnone (some n)).mpr ⟨n, rfl, hadmits⟩]
      rfl

/-- Length fields that admit no length are refused. -/
theorem exists_framing_error (hsome : h.getAll "content-length" ≠ [])
    (hno : ∀ n, ¬ h.AdmitsLength n) : ∃ error, h.framing = .error error := by
  rw [framing_of_no_coding hcoding]
  cases hfold : (h.getAll "content-length").foldlM agreeLength none with
  | error error => exact ⟨error, rfl⟩
  | ok found =>
    obtain ⟨n, -, hadmits⟩ := (foldlM_agreeLength_eq_ok_iff hsome found).mp hfold
    exact absurd hadmits (hno n)

end Headers

/-- The fields frame a body with a length exactly if they admit it, and are refused if they admit
none. So lengths are read as the fields state them, and fields that state none are refused, exactly
if the fields admit no length that they do not state. -/
theorem Headers.framing_length_strict_iff {h : Headers}
    (hcoding : h.getAll "transfer-encoding" = []) :
    (∀ n, h.framing = .ok (some (lengthKind n)) ↔ h.AdmitsLength n) ∧
      (h.getAll "content-length" ≠ [] → (∀ n, ¬ h.AdmitsLength n) →
        ∃ error, h.framing = .error error) ∧
      (((∀ n, h.framing = .ok (some (lengthKind n)) ↔ h.StatesLength n) ∧
          (h.getAll "content-length" ≠ [] → (∀ n, ¬ h.StatesLength n) →
            ∃ error, h.framing = .error error)) ↔
        ∀ n, h.AdmitsLength n → h.StatesLength n) := by
  have hread := fun n => framing_eq_lengthKind_iff (n := n) hcoding
  refine ⟨hread, exists_framing_error hcoding, ?_⟩
  constructor
  · rintro ⟨hstated, -⟩ n hadmits
    exact (hstated n).mp ((hread n).mpr hadmits)
  · intro hstrict
    constructor
    · exact fun n => (hread n).trans ⟨hstrict n, StatesLength.admits⟩
    · intro hsome hno
      exact exists_framing_error hcoding hsome fun n hadmits => hno n (hstrict n hadmits)

/-- A length that is stated three times over two fields is read. -/
theorem Headers.framing_length_strict_repeated :
    let h : Headers := ⟨[⟨"Content-Length", "5,\t5 "⟩, ⟨"content-length", "005"⟩]⟩
    h.getAll "transfer-encoding" = [] ∧ h.framing = .ok (some (.contentLength 5)) := by
  intro h
  have hcoding : h.getAll "transfer-encoding" = [] := rfl
  have hstates : h.StatesLength 5 := by decide
  have hstrict : ∀ n, h.AdmitsLength n → h.StatesLength n := by
    intro n hadmits
    -- nothing but the length that is read is admitted
    have hread := ((framing_length_strict_iff hcoding).1 n).mpr hadmits
    obtain rfl : 5 = n := lengthKind_inj.mp (Option.some.inj (Except.ok.inj hread))
    exact hstates
  exact ⟨hcoding, (((framing_length_strict_iff hcoding).2.2.mpr hstrict).1 5).mpr hstates⟩

/-- A plus sign is read over. -/
theorem Headers.framing_length_signed :
    ∃ head : RequestHead,
      (RequestHead.parse (Bytes.ofText
        "POST / HTTP/1.1\r\nContent-Length: +5\r\n\r\n")).toOption = some head ∧
      head.headers.getAll "transfer-encoding" = [] ∧
      head.headers.framing = .ok (some (.contentLength 5)) ∧
      ¬ head.headers.StatesLength 5 := by
  refine ⟨⟨"POST", "/", 1, ⟨[⟨"Content-Length", "+5"⟩]⟩⟩, ?_, rfl, rfl, ?_⟩
  · decide +kernel
  · decide

/-- So is a blank that is neither a space nor a tab. -/
example : (Headers.mk [⟨"Content-Length", "\u00a05"⟩]).framing = .ok (some (.contentLength 5)) :=
  rfl

end HttpRelay.Http
