import HttpRelay.Proofs.Config.Reconciling
import HttpRelay.Proofs.Tls.CertificateChoice

/-!
# Lists of certificates

What becomes of the certificates that a valid configuration lists, when all of their files are
usable.

* `Tls.CertificateStore.load_of_usable`: the certificates are added in the order of the list;
* `Config.find?_none_of_isValid`: a valid configuration has one default at most, which is found
  without a name;
* `Config.shadows_nothing_iff`: every certificate is found under its own name exactly if those with
  one name, up to ASCII case, are the same. Being valid does not ask for this.
-/

namespace HttpRelay

namespace Tls.CertificateStore

variable {α : Type} {present : String → Bool} {parse : String → String → Option α}
  {certificate : Source → α} {sources : List Source}

/-- Every file is there, and each pair of them makes a certificate. -/
def Usable (present : String → Bool) (parse : String → String → Option α)
    (certificate : Source → α) (sources : List Source) : Prop :=
  ∀ source ∈ sources, present source.certificatePath = true ∧ present source.keyPath = true ∧
    parse source.certificatePath source.keyPath = some (certificate source)

/-- What is added for some sources. -/
def entriesOf (certificate : Source → α) (sources : List Source) : List (Option String × α) :=
  sources.map fun source => (source.serverName, certificate source)

theorem load_of_usable (h : Usable present parse certificate sources) :
    load present parse sources =
      .ok (({} : CertificateStore α).insertAll (entriesOf certificate sources)) := by
  rw [load, insertAll, entriesOf]
  -- the list is taken up from any store, not from the empty one alone
  generalize ({} : CertificateStore α) = store
  induction sources generalizing store with
  | nil => rfl
  | cons source sources ih =>
    obtain ⟨⟨hcertificate, hkey, hparse⟩, htail⟩ := List.forall_mem_cons.mp h
    rw [List.foldlM_cons, hcertificate, hkey, hparse, List.map_cons, List.foldl_cons]
    exact ih htail _

theorem mem_entriesOf (certificate : Source → α) {source : Source} (h : source ∈ sources) :
    (source.serverName, certificate source) ∈ entriesOf certificate sources :=
  List.mem_map.mpr ⟨source, h, rfl⟩

/-- What was added last under a name is the certificate of a source with that name. -/
theorem AddedLast.exists_source {P : Option String → Prop} {found : α}
    (h : AddedLast (entriesOf certificate sources) P found) :
    ∃ source ∈ sources, P source.serverName ∧ certificate source = found := by
  obtain ⟨before, name, after, hentries, hname, -⟩ := h
  have hmem : (name, found) ∈ entriesOf certificate sources := by
    rw [hentries]
    exact List.mem_append_right before List.mem_cons_self
  obtain ⟨source, hsource, heq⟩ := List.mem_map.mp hmem
  obtain ⟨rfl, rfl⟩ := Prod.mk.inj heq
  exact ⟨source, hsource, hname, rfl⟩

theorem isNamed_self {host : String} {name : Option String} (h : name = some host) :
    IsNamed host name :=
  ⟨host, h, beq_self_eq_true _⟩

/-- A lookup does not depend on the case of the name. -/
theorem find?_congr {store : CertificateStore α} {name host : String}
    (h : Text.eqIgnoreCase name host = true) :
    store.find? (some name) = store.find? (some host) := by
  rw [Text.eqIgnoreCase, beq_iff_eq] at h
  rw [find?, find?, Option.bind_some, Option.bind_some, h]

/-- A source with a name is found under it exactly if its certificate is the last one there. -/
theorem find?_entriesOf_iff {source : Source} (hsource : source ∈ sources) {host : String}
    (hhost : source.serverName = some host) {found : α} :
    (({} : CertificateStore α).insertAll (entriesOf certificate sources)).find? (some host) =
        some found ↔ AddedLast (entriesOf certificate sources) (IsNamed host) found := by
  rw [find?_insertAll_iff, due_some_iff ⟨_, mem_entriesOf _ hsource, isNamed_self hhost⟩]

/-- Without a name, the only default is found. -/
theorem find?_none_of_countP (hcount : sources.countP (·.serverName.isNone) ≤ 1)
    {source : Source} (hsource : source ∈ sources) (hdefault : source.serverName = none) :
    (({} : CertificateStore α).insertAll (entriesOf certificate sources)).find? none =
      some (certificate source) := by
  obtain ⟨before, after, rfl⟩ := List.append_of_mem hsource
  -- the one default is this one, so that none comes behind it
  have hafter : after.countP (·.serverName.isNone) = 0 := by
    rw [List.countP_append, List.countP_cons_of_pos (by simp [hdefault])] at hcount
    omega
  rw [find?_insertAll_iff]
  refine .fallback nofun ⟨entriesOf certificate before, none, entriesOf certificate after, ?_, rfl,
    fun entry hentry hnone => ?_⟩
  · simp [entriesOf, hdefault]
  · obtain ⟨other, hother, rfl⟩ := List.mem_map.mp hentry
    exact List.countP_eq_zero.mp hafter other hother (Option.isNone_iff_eq_none.mpr hnone)

end Tls.CertificateStore

namespace Config

open HttpRelay.Tls (CertificateStore)
open HttpRelay.Tls.CertificateStore (IsNamed Source Usable)

variable {α : Type} {c : Config} {t : Tls}

/-- A valid configuration lists one default at most. -/
theorem countP_default_of_isValid (hvalid : c.isValid = true) (htls : c.listener.tls = some t) :
    t.certificates.countP (·.serverName.isNone) ≤ 1 := by
  have hlistener := (faults_eq_nil_iff.mp (isValid_iff.mp hvalid)).1
  simp only [Listener.faults, htls, Tls.faults, List.append_eq_nil_iff, when_eq_nil,
    decide_eq_false_iff_not, Nat.not_lt] at hlistener
  exact hlistener.2.2

/-- The certificates of a valid configuration, when all files are usable: the default is the one
that is found without a name, and each of the others is found under its own name exactly if any two
whose names agree up to ASCII case are the same certificate. -/
theorem shadows_nothing_iff (hvalid : c.isValid = true) (htls : c.listener.tls = some t)
    {present : String → Bool} {parse : String → String → Option α} {certificate : Source → α}
    (husable : Usable present parse certificate t.certificates) :
    ∃ store, CertificateStore.load present parse t.certificates = .ok store ∧
      (∀ source ∈ t.certificates, source.serverName = none →
        store.find? none = some (certificate source)) ∧
      ((∀ source ∈ t.certificates, ∀ host, source.serverName = some host →
          store.find? (some host) = some (certificate source)) ↔
        ∀ source ∈ t.certificates, ∀ other ∈ t.certificates, ∀ host,
          source.serverName = some host → IsNamed host other.serverName →
            certificate other = certificate source) := by
  refine ⟨_, CertificateStore.load_of_usable husable, fun source hsource hdefault =>
    CertificateStore.find?_none_of_countP (countP_default_of_isValid hvalid htls) hsource hdefault,
    ?_⟩
  constructor
  · rintro hfound source hsource other hother host hhost ⟨name, hname, hsame⟩
    have hother := hfound other hother name hname
    rw [CertificateStore.find?_congr hsame, hfound source hsource host hhost] at hother
    exact (Option.some.inj hother).symm
  · intro hagree source hsource host hhost
    rw [CertificateStore.find?_entriesOf_iff hsource hhost]
    -- one of those under the name was added last, and it is the same certificate
    obtain ⟨found, hlast⟩ := CertificateStore.exists_addedLast
      ⟨_, CertificateStore.mem_entriesOf certificate hsource, CertificateStore.isNamed_self hhost⟩
    obtain ⟨other, hother, hnamed, rfl⟩ := hlast.exists_source
    rwa [hagree source hsource other hother host hhost hnamed] at hlast

/-- Two names and a default: whatever is listed is found. -/
theorem shadows_nothing_two_names :
    let certificates : List Source := [⟨some "a.test", "a.pem", "a.key"⟩, ⟨none, "d.pem", "d.key"⟩,
      ⟨some "B.TEST", "b.pem", "b.key"⟩]
    let c : Config := { listener := { tls := some ⟨certificates⟩ } }
    c.isValid = true ∧ ∃ store : CertificateStore (String × String),
      CertificateStore.load (fun _ => true) (fun path key => some (path, key)) certificates =
        .ok store ∧
      ∀ source ∈ certificates,
        store.find? source.serverName = some (source.certificatePath, source.keyPath) := by
  intro certificates c
  have hvalid : c.isValid = true := by decide +kernel
  have husable : Usable (fun _ => true) (fun path key => some (path, key))
      (fun source => (source.certificatePath, source.keyPath)) certificates :=
    fun _ _ => ⟨rfl, rfl, rfl⟩
  have hdistinct : ∀ source ∈ certificates, ∀ other ∈ certificates,
      source.serverName.map Text.asciiLower = other.serverName.map Text.asciiLower →
        source = other := by decide +kernel
  obtain ⟨store, hload, hdefault, hnamed⟩ := shadows_nothing_iff hvalid rfl husable
  refine ⟨hvalid, store, hload, fun source hsource => ?_⟩
  cases hname : source.serverName with
  | none => exact hdefault source hsource hname
  | some host =>
    refine hnamed.mpr ?_ source hsource host hname
    rintro source hsource other hother host hhost ⟨name, hname, hsame⟩
    have hlower : Text.asciiLower name = Text.asciiLower host := beq_iff_eq.mp hsame
    rw [hdistinct other hother source hsource (by simp [hhost, hname, hlower])]

/-- A name that is listed twice, in different cases: the configuration is valid, and under the name
of the earlier certificate the later one is found. -/
theorem not_shadows_nothing_two_cases :
    let certificates : List Source :=
      [⟨some "a.test", "a.pem", "a.key"⟩, ⟨some "A.TEST", "b.pem", "b.key"⟩]
    let c : Config := { listener := { tls := some ⟨certificates⟩ } }
    c.isValid = true ∧ ∃ store : CertificateStore (String × String),
      CertificateStore.load (fun _ => true) (fun path key => some (path, key)) certificates =
        .ok store ∧
      store.find? (some "a.test") = some ("b.pem", "b.key") := by
  intro certificates c
  exact ⟨by decide +kernel, _, rfl, by decide +kernel⟩

end Config

end HttpRelay
