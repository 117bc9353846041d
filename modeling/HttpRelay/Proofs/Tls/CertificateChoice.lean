import HttpRelay.Proofs.Tls.WireNames
import HttpRelay.Tls.CertificateStore
import Mathlib.Data.List.Induction

/-!
# Choosing a certificate

Which certificate a client is served with, told by the certificates as they were added and by the
octets of its hello.

* `CertificateStore.AddedLast`: the certificate that was added last under a kind of name;
* `CertificateStore.Due`: the certificate that is due to a host name, if there is one;
* `CertificateStore.find?_insertAll_iff`: a lookup finds what is due;
* `CertificateStore.select_fails_closed`: what a record is answered with, whatever was added.
-/

namespace HttpRelay.Tls.CertificateStore

variable {α : Type} {entries : List (Option String × α)} {P : Option String → Prop}
  {name : Option String} {certificate other : α}

/-- The certificate that was added last among those under a kind of name. -/
def AddedLast (entries : List (Option String × α)) (P : Option String → Prop) (certificate : α) :
    Prop :=
  ∃ before name after, entries = before ++ (name, certificate) :: after ∧ P name ∧
    ∀ entry ∈ after, ¬ P entry.1

theorem AddedLast.exists_mem (h : AddedLast entries P certificate) :
    ∃ entry ∈ entries, P entry.1 := by
  obtain ⟨before, name, after, rfl, hname, -⟩ := h
  exact ⟨(name, certificate), by simp, hname⟩

/-- The certificate that was added last is the one at the end, if that is under such a name, and
otherwise the one that was the last before it. -/
theorem addedLast_concat :
    AddedLast (entries ++ [(name, other)]) P certificate ↔
      P name ∧ certificate = other ∨ ¬ P name ∧ AddedLast entries P certificate := by
  constructor
  · rintro ⟨before, name', after, hentries, hname, hafter⟩
    rcases List.eq_nil_or_concat after with rfl | ⟨after, entry, rfl⟩
    · obtain ⟨-, hlast⟩ := List.append_inj' hentries rfl
      obtain ⟨rfl, rfl⟩ := Prod.mk.inj (List.cons.inj hlast).1
      exact .inl ⟨hname, rfl⟩
    · -- what comes after the certificate ends with the entry that was added
      rw [List.concat_eq_append, ← List.cons_append, ← List.append_assoc] at hentries
      obtain ⟨rfl, hlast⟩ := List.append_inj' hentries rfl
      obtain rfl := (List.cons.inj hlast).1
      exact .inr ⟨hafter (name, other) (by simp), before, name', after, rfl, hname,
        fun entry hentry => hafter entry (by simp [hentry])⟩
  · rintro (⟨hname, rfl⟩ | ⟨hname, before, name', after, rfl, hname', hafter⟩)
    · exact ⟨entries, name, [], rfl, hname, by simp⟩
    · refine ⟨before, name', after ++ [(name, other)], by simp, hname', fun entry hentry => ?_⟩
      rcases List.mem_append.mp hentry with hentry | hentry
      · exact hafter entry hentry
      · obtain rfl := List.mem_singleton.mp hentry
        exact hname

theorem addedLast_concat_of_pos (hname : P name) :
    AddedLast (entries ++ [(name, other)]) P certificate ↔ certificate = other := by
  simp [addedLast_concat, hname]

theorem addedLast_concat_of_neg (hname : ¬ P name) :
    AddedLast (entries ++ [(name, other)]) P certificate ↔ AddedLast entries P certificate := by
  simp [addedLast_concat, hname]

/-- Where something was added under such a name, some certificate was the last. -/
theorem exists_addedLast (h : ∃ entry ∈ entries, P entry.1) :
    ∃ certificate, AddedLast entries P certificate := by
  induction entries using List.reverseRecOn with
  | nil =>
    obtain ⟨entry, hentry, -⟩ := h
    cases hentry
  | append_singleton entries entry ih =>
    by_cases hname : P entry.1
    · exact ⟨entry.2, (addedLast_concat_of_pos hname).mpr rfl⟩
    · obtain ⟨found, hfound, hP⟩ := h
      rcases List.mem_append.mp hfound with hfound | hfound
      · obtain ⟨certificate, hlast⟩ := ih ⟨found, hfound, hP⟩
        exact ⟨certificate, (addedLast_concat_of_neg hname).mpr hlast⟩
      · obtain rfl := List.mem_singleton.mp hfound
        exact absurd hP hname

/-- The names under which a host is found: equal to its own up to ASCII case. -/
def IsNamed (host : String) (name : Option String) : Prop :=
  ∃ other, name = some other ∧ Text.eqIgnoreCase other host = true

/-- A certificate without a name is a default. -/
def IsDefault (name : Option String) : Prop := name = none

/-- The certificate that is due to a host name: the last one under that name, and without one under
it, the last default. -/
inductive Due (entries : List (Option String × α)) : Option String → α → Prop
  | named {host : String} {certificate : α} (h : AddedLast entries (IsNamed host) certificate) :
      Due entries (some host) certificate
  | fallback {host : Option String} {certificate : α}
      (unnamed : ∀ name, host = some name → ∀ entry ∈ entries, ¬ IsNamed name entry.1)
      (h : AddedLast entries IsDefault certificate) : Due entries host certificate

/-- Where something was added under a name, no default is due to it. -/
theorem due_some_iff {host : String} (h : ∃ entry ∈ entries, IsNamed host entry.1) :
    Due entries (some host) certificate ↔ AddedLast entries (IsNamed host) certificate := by
  constructor
  · rintro (hnamed | ⟨hunnamed, -⟩)
    · exact hnamed
    · obtain ⟨entry, hentry, hname⟩ := h
      exact absurd hname (hunnamed host rfl entry hentry)
  · exact .named

theorem insertAll_concat (store : CertificateStore α) (entries : List (Option String × α))
    (entry : Option String × α) :
    store.insertAll (entries ++ [entry]) = (store.insertAll entries).insert entry.1 entry.2 := by
  rw [insertAll, List.foldl_append]
  rfl

/-- Under a name, the certificate is found that was added last. -/
theorem lookup_insertAll_iff (entries : List (Option String × α)) (host : String)
    (certificate : α) :
    (({} : CertificateStore α).insertAll entries).byName.lookup (Text.asciiLower host) =
        some certificate ↔ AddedLast entries (IsNamed host) certificate := by
  induction entries using List.reverseRecOn with
  | nil => simp [insertAll, AddedLast]
  | append_singleton entries entry ih =>
    obtain ⟨name, other⟩ := entry
    rw [insertAll_concat]
    cases name with
    | none =>
      have hname : ¬ IsNamed host none := fun ⟨_, hnone, _⟩ => nomatch hnone
      rw [addedLast_concat_of_neg hname]
      exact ih
    | some name =>
      -- what was added last stands in front, where the lookup meets it first
      show List.lookup _ ((Text.asciiLower name, other) :: _) = _ ↔ _
      by_cases hsame : Text.asciiLower name = Text.asciiLower host
      · have hname : IsNamed host (some name) := ⟨name, rfl, by simp [Text.eqIgnoreCase, hsame]⟩
        rw [addedLast_concat_of_pos hname, hsame, List.lookup_cons_self, Option.some.injEq, eq_comm]
      · have hname : ¬ IsNamed host (some name) := by
          rintro ⟨_, ⟨⟩, heq⟩
          exact hsame (by simpa [Text.eqIgnoreCase] using heq)
        rw [addedLast_concat_of_neg hname, ← ih, List.lookup_cons, beq_false_of_ne (Ne.symm hsame)]

/-- The default is the one that was added last. -/
theorem fallback_insertAll_iff (entries : List (Option String × α)) (certificate : α) :
    (({} : CertificateStore α).insertAll entries).fallback = some certificate ↔
      AddedLast entries IsDefault certificate := by
  induction entries using List.reverseRecOn with
  | nil => simp [insertAll, AddedLast]
  | append_singleton entries entry ih =>
    obtain ⟨name, other⟩ := entry
    rw [insertAll_concat]
    cases name with
    | none =>
      have hname : IsDefault none := rfl
      rw [addedLast_concat_of_pos hname]
      show some other = some certificate ↔ _
      rw [Option.some.injEq, eq_comm]
    | some name =>
      have hname : ¬ IsDefault (some name) := Option.some_ne_none name
      rw [addedLast_concat_of_neg hname]
      exact ih

/-- A lookup finds the certificate that is due. -/
theorem find?_insertAll_iff (entries : List (Option String × α)) (host : Option String)
    (certificate : α) :
    (({} : CertificateStore α).insertAll entries).find? host = some certificate ↔
      Due entries host certificate := by
  rw [find?]
  cases host with
  | none =>
    show (Option.none.or _) = _ ↔ _
    rw [Option.none_or, fallback_insertAll_iff]
    constructor
    · exact fun hlast => .fallback nofun hlast
    · rintro (_ | ⟨-, hlast⟩)
      exact hlast
  | some host =>
    show (Option.or _ _) = _ ↔ _
    by_cases hfound : ∃ entry ∈ entries, IsNamed host entry.1
    · -- what is under the name hides the default
      obtain ⟨found, hlast⟩ := exists_addedLast hfound
      have hlookup := (lookup_insertAll_iff entries host found).mpr hlast
      rw [due_some_iff hfound, Option.bind_some, hlookup, Option.some_or, ← hlookup,
        lookup_insertAll_iff]
    · -- nothing is under the name, which leaves the default
      have hlookup : (({} : CertificateStore α).insertAll entries).byName.lookup
          (Text.asciiLower host) = none := by
        rw [Option.eq_none_iff_forall_ne_some]
        intro found hlookup
        exact hfound ((lookup_insertAll_iff entries host found).mp hlookup).exists_mem
      rw [Option.bind_some, hlookup, Option.none_or, fallback_insertAll_iff]
      constructor
      · refine fun hlast => .fallback ?_ hlast
        rintro _ ⟨⟩ entry hentry hname
        exact hfound ⟨entry, hentry, hname⟩
      · rintro (hnamed | ⟨-, hlast⟩)
        · exact absurd hnamed.exists_mem hfound
        · exact hlast

/-- The choice fails closed. A record that is accepted carries extensions, and these decide what it
is answered with: a handshake of certificate validation is refused whatever was added, and for any
other one the certificate is served that is due to its first host name. Where none is due, the
answer is an error with that name. -/
theorem select_fails_closed (entries : List (Option String × α)) {record : Bytes}
    {hello : ClientHello} (h : ClientHello.ofRecord record = .ok hello) :
    let store := ({} : CertificateStore α).insertAll entries
    (∃ wire, ClientHello.Carries wire record) ∧
      ∀ wire, ClientHello.Carries wire record →
        let isAcme := ∃ protocols, WireExtension.alpn protocols ∈ wire ∧
          Bytes.ofText "acme-tls/1" ∈ protocols
        let host := (WireExtension.hosts wire).head?.map Extension.asciiLossy
        (store.select hello = .error .acmeRefused ↔ isAcme) ∧
          (∀ certificate, store.select hello = .ok certificate ↔
            ¬ isAcme ∧ Due entries host certificate) ∧
          ∀ unknown, store.select hello = .error (.unknownServerName unknown) ↔
            ¬ isAcme ∧ unknown = host ∧ ∀ certificate, ¬ Due entries host certificate := by
  intro store
  refine ⟨ClientHello.exists_carries h, ?_⟩
  intro wire hwire isAcme host
  have hacme : hello.isAcme = true ↔ isAcme := ClientHello.isAcme_iff h hwire
  have hhost : hello.serverName? = host := ClientHello.serverName?_of_carries h hwire
  have hdue (certificate : α) := find?_insertAll_iff entries host certificate
  rw [select, hhost, ← hacme]
  by_cases hrefused : hello.isAcme = true
  · simp [hrefused]
  · rw [if_neg hrefused]
    cases hfound : store.find? host with
    | none =>
      have hnone (certificate : α) : ¬ Due entries host certificate := fun hc => by
        rw [← hdue, hfound] at hc
        cases hc
      simp [hrefused, hnone, eq_comm]
    | some found =>
      have hsome (certificate : α) : Due entries host certificate ↔ found = certificate := by
        rw [← hdue, hfound, Option.some.injEq]
      simp [hrefused, hsome]

/-- The client asks for a name that was added twice, in different cases. -/
theorem select_fails_closed_two_names :
    let entries : List (Option String × Nat) := [(some "A.TEST", 0), (none, 1), (some "a.test", 2)]
    ∃ wire, ClientHello.Carries wire ClientHello.twoNames ∧
      Due entries ((WireExtension.hosts wire).head?.map Extension.asciiLossy) 2 := by
  intro entries
  have haccepted : ClientHello.ofRecord ClientHello.twoNames =
      .ok ⟨⟨3, 3⟩, [], [.serverName ["a.test"], .alpn ["h2"]]⟩ := by decide +kernel
  obtain ⟨⟨wire, hwire⟩, hall⟩ := select_fails_closed entries haccepted
  exact ⟨wire, hwire, (((hall wire hwire).2.1 2).mp (by decide +kernel)).2⟩

end HttpRelay.Tls.CertificateStore
