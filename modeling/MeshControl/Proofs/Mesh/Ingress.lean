import Mathlib
import MeshControl.Mesh.Configuration

/-!
# The servers of the gateway

A certificate opens a server if its first host is not the name of a server already, be it the one
for plain text or that of an earlier certificate. So of several certificates with one first host it
is the first that callers are shown.

## Main definitions

* `Certificate.Opens` — a certificate that stands behind others opens a server.
* `Gateway.Server.Shows` — what the server of a certificate has to be.
* `Ingress.Opened` — servers are those of the certificates at some places.
* `Ingress.gateway_exact` — the gateway has one such server for every certificate that opens one.
-/

namespace MeshControl

namespace Certificate

/-- The first host of a certificate is a name that no server has, neither the one for plain text
nor one for an earlier certificate. -/
structure Opens (earlier : List Certificate) (c : Certificate) (name : String) : Prop where
  first : c.hosts.head? = some name
  free : name ≠ "http"
  fresh : ∀ b ∈ earlier, b.hosts.head? ≠ some name

/-- The certificate at some place opens a server. -/
def OpensAt (certificates : List Certificate) (n : Nat) : Prop :=
  ∃ c name, certificates[n]? = some c ∧ c.Opens (certificates.take n) name

end Certificate

/-- A server is named after the first host of a certificate, and has all its hosts and its files. -/
structure Gateway.Server.Shows (s : Gateway.Server) (c : Certificate) : Prop where
  name : c.hosts.head? = some s.port.name
  port : s.port.number = 443 ∧ s.port.protocol = "https"
  hosts : s.hosts = c.hosts
  tls : s.tls = some ⟨.simple, c.certPath, c.keyPath⟩

namespace Ingress

/-- Servers are, in order, those of the certificates that open one. -/
structure Opened (certificates : List Certificate) (places : List Nat)
    (servers : List Gateway.Server) : Prop where
  increasing : places.Pairwise (· < ·)
  place : ∀ n, n ∈ places ↔ Certificate.OpensAt certificates n
  server : List.Forall₂ (fun n s => ∃ c, certificates[n]? = some c ∧ s.Shows c) places servers

end Ingress

namespace Certificate

/-- The first hosts of certificates. -/
def firsts (certificates : List Certificate) : List String :=
  certificates.filterMap (·.hosts.head?)

variable {taken taken' : List String} {c : Certificate} {name : String}

theorem mem_firsts {certificates : List Certificate} :
    name ∈ firsts certificates ↔ ∃ b ∈ certificates, b.hosts.head? = some name :=
  List.mem_filterMap

/-! ## First certificates -/

theorem firstPerName_congr (same : ∀ name, name ∈ taken ↔ name ∈ taken') (l : List Certificate) :
    firstPerName taken l = firstPerName taken' l := by
  induction l generalizing taken taken' with
  | nil => rfl
  | cons c l ih =>
    have more : ∀ host name, name ∈ host :: taken ↔ name ∈ host :: taken' := by
      simp [same]
    simp only [firstPerName, same, ih same, ih (more _)]

/-- Certificates behind others find the names of the others taken. -/
theorem firstPerName_append (taken : List String) (l l' : List Certificate) :
    firstPerName taken (l ++ l') = firstPerName taken l ++ firstPerName (firsts l ++ taken) l' := by
  induction l generalizing taken with
  | nil => rfl
  | cons c l ih =>
    simp only [List.cons_append, firstPerName, firsts, List.filterMap_cons]
    cases c.hosts.head? with
    | none => exact ih taken
    | some host =>
      have behind : firstPerName (firsts l ++ host :: taken) l' =
          firstPerName (host :: (firsts l ++ taken)) l' :=
        firstPerName_congr (fun name => List.perm_middle.mem_iff) l'
      simp only
      split_ifs with known
      · have present : firstPerName (host :: (firsts l ++ taken)) l' =
            firstPerName (firsts l ++ taken) l' := by
          refine firstPerName_congr (fun name => ?_) l'
          rw [List.mem_cons, or_iff_right_of_imp]
          rintro rfl
          exact List.mem_append_right _ known
        rw [ih, ← present]
        rfl
      · rw [ih, behind]
        rfl

/-- The certificate that has a name is the first with it, if the name was not taken. -/
theorem mem_firstPerName_iff {l : List Certificate} : (name, c) ∈ firstPerName taken l ↔
    name ∉ taken ∧ l.find? (·.hosts.head? = some name) = some c := by
  fun_induction firstPerName taken l with
  | case1 => simp
  | case2 taken b l bare ih => simp [ih, bare]
  | case3 taken b l host first known ih =>
    by_cases same : host = name
    · subst same
      simp [ih, known]
    · simp [ih, first, same]
  | case4 taken b l host first unknown ih =>
    by_cases same : host = name
    · subst same
      simp [ih, first, unknown, eq_comm]
    · simp [ih, first, same, Ne.symm same]

theorem of_mem_firstPerName {l : List Certificate} {x : String × Certificate}
    (h : x ∈ firstPerName taken l) : x.2.hosts.head? = some x.1 ∧ x.1 ∉ taken := by
  obtain ⟨free, first⟩ := mem_firstPerName_iff.mp h
  exact ⟨by simpa using List.find?_some first, free⟩

theorem sublist_firstPerName (taken : List String) (l : List Certificate) :
    ((firstPerName taken l).map (·.2)).Sublist l := by
  fun_induction firstPerName taken l with
  | case1 => exact .slnil
  | case2 taken c l bare ih => exact ih.cons c
  | case3 taken c l host first known ih => exact ih.cons c
  | case4 taken c l host first unknown ih => exact ih.cons_cons c

theorem nodup_names_firstPerName (taken : List String) (l : List Certificate) :
    ((firstPerName taken l).map (·.1)).Nodup := by
  fun_induction firstPerName taken l with
  | case1 => exact List.nodup_nil
  | case2 taken c l bare ih => exact ih
  | case3 taken c l host first known ih => exact ih
  | case4 taken c l host first unknown ih =>
    refine List.nodup_cons.mpr ⟨fun again => ?_, ih⟩
    obtain ⟨x, hx, rfl⟩ := List.mem_map.mp again
    exact (of_mem_firstPerName hx).2 List.mem_cons_self

/-! ## One more certificate -/

theorem opens_iff {earlier : List Certificate} : c.Opens earlier name ↔
    c.hosts.head? = some name ∧ name ∉ firsts earlier ++ ["http"] := by
  rw [List.mem_append, mem_firsts, List.mem_singleton]
  constructor
  · rintro ⟨first, free, fresh⟩
    refine ⟨first, ?_⟩
    rintro (⟨b, hb, same⟩ | same)
    · exact fresh b hb same
    · exact free same
  · rintro ⟨first, unknown⟩
    exact ⟨first, fun same => unknown (.inr same), fun b hb same => unknown (.inl ⟨b, hb, same⟩)⟩

theorem firstPerName_concat_of_opens {earlier : List Certificate} (h : c.Opens earlier name) :
    firstPerName ["http"] (earlier ++ [c]) = firstPerName ["http"] earlier ++ [(name, c)] := by
  obtain ⟨first, unknown⟩ := opens_iff.mp h
  rw [firstPerName_append, firstPerName, first]
  simp only [if_neg unknown, firstPerName]

theorem firstPerName_concat_of_not_opens {earlier : List Certificate}
    (h : ∀ name, ¬ c.Opens earlier name) :
    firstPerName ["http"] (earlier ++ [c]) = firstPerName ["http"] earlier := by
  simp only [opens_iff, not_and, not_not] at h
  rw [firstPerName_append, firstPerName]
  cases first : c.hosts.head? with
  | none => simp [firstPerName]
  | some host =>
    have known := h host first
    simp only [if_pos known, firstPerName, List.append_nil]

/-- One more certificate adds a place at most. -/
theorem opensAt_concat {certificates : List Certificate} {n : Nat} :
    OpensAt (certificates ++ [c]) n ↔
      OpensAt certificates n ∨ n = certificates.length ∧ ∃ name, c.Opens certificates name := by
  unfold OpensAt
  obtain before | rfl | behind := lt_trichotomy n certificates.length
  · rw [List.getElem?_append_left before, List.take_append_of_le_length before.le]
    simp [before.ne]
  · simp
  · have missing : certificates[n]? = none := List.getElem?_eq_none behind.le
    have missing' : (certificates ++ [c])[n]? = none := by
      refine List.getElem?_eq_none ?_
      rw [List.length_append, List.length_singleton]
      exact behind
    simp [missing, missing', behind.ne']

theorem OpensAt.lt_length {certificates : List Certificate} {n : Nat} (h : OpensAt certificates n) :
    n < certificates.length := by
  obtain ⟨c, -, there, -⟩ := h
  exact (List.getElem?_eq_some_iff.mp there).1

end Certificate

/-! ## Servers -/

namespace Ingress

variable {certificates : List Certificate} {places : List Nat} {servers : List Gateway.Server}
  {c : Certificate} {name : String}

theorem opened_nil : Opened [] [] [] where
  increasing := .nil
  place n := by simp [Certificate.OpensAt]
  server := .nil

theorem shows_server (first : c.hosts.head? = some name) : (c.server name).Shows c :=
  ⟨first, ⟨rfl, rfl⟩, rfl, rfl⟩

namespace Opened

/-- The servers there are stay where they are when a certificate is added. -/
theorem server_append (h : Opened certificates places servers) (more : List Certificate) :
    List.Forall₂ (fun n s => ∃ c', (certificates ++ more)[n]? = some c' ∧
      Gateway.Server.Shows s c') places servers := by
  refine h.server.imp ?_
  rintro n s ⟨c', there, shows⟩
  have before : n < certificates.length := (List.getElem?_eq_some_iff.mp there).1
  exact ⟨c', by rw [List.getElem?_append_left before, there], shows⟩

theorem concat (h : Opened certificates places servers) (opens : c.Opens certificates name) :
    Opened (certificates ++ [c]) (places ++ [certificates.length])
      (servers ++ [c.server name]) where
  increasing := by
    refine List.pairwise_append.mpr ⟨h.increasing, List.pairwise_singleton _ _, ?_⟩
    intro n hn m hm
    rw [List.mem_singleton.mp hm]
    exact ((h.place n).mp hn).lt_length
  place n := by
    have added : ∃ name, c.Opens certificates name := ⟨name, opens⟩
    rw [List.mem_append, List.mem_singleton, h.place, Certificate.opensAt_concat,
      and_iff_left added]
  server := by
    have last : (certificates ++ [c])[certificates.length]? = some c := List.getElem?_concat_length
    exact List.rel_append (h.server_append [c]) (.cons ⟨c, last, shows_server opens.first⟩ .nil)

theorem concat_of_not_opens (h : Opened certificates places servers)
    (none : ∀ name, ¬ c.Opens certificates name) : Opened (certificates ++ [c]) places servers where
  increasing := h.increasing
  place n := by
    rw [h.place, Certificate.opensAt_concat, or_iff_left]
    rintro ⟨-, name, opens⟩
    exact none name opens
  server := h.server_append [c]

end Opened

theorem exists_opened (certificates : List Certificate) : ∃ places,
    Opened certificates places
      ((Certificate.firstPerName ["http"] certificates).map fun c => c.2.server c.1) := by
  induction certificates using List.reverseRecOn with
  | nil => exact ⟨[], opened_nil⟩
  | append_singleton certificates c ih =>
    obtain ⟨places, opened⟩ := ih
    by_cases opens : ∃ name, c.Opens certificates name
    · obtain ⟨name, opens⟩ := opens
      rw [Certificate.firstPerName_concat_of_opens opens, List.map_append]
      exact ⟨_, opened.concat opens⟩
    · rw [Certificate.firstPerName_concat_of_not_opens (not_exists.mp opens)]
      exact ⟨places, opened.concat_of_not_opens (not_exists.mp opens)⟩

/-! ## The gateway -/

theorem nodup_names_gateway (i : Ingress) (certificates : List Certificate) :
    ((i.gateway certificates).servers.map (·.port.name)).Nodup := by
  have names : (i.gateway certificates).servers.map (·.port.name) =
      "http" :: (Certificate.firstPerName ["http"] certificates).map (·.1) := by
    rw [gateway, List.map_cons, List.map_map]
    rfl
  rw [names]
  refine List.nodup_cons.mpr ⟨fun known => ?_, Certificate.nodup_names_firstPerName _ _⟩
  obtain ⟨x, hx, same⟩ := List.mem_map.mp known
  exact (Certificate.of_mem_firstPerName hx).2 (List.mem_singleton.mpr same)

theorem gatewayResource_concat_of_not_opens (i : Ingress)
    (none : ∀ name, ¬ c.Opens certificates name) :
    i.gatewayResource (certificates ++ [c]) = i.gatewayResource certificates := by
  rw [gatewayResource, gateway, Certificate.firstPerName_concat_of_not_opens none]
  rfl

/-- The one gateway has the server for plain text and then, in the order of the certificates, one
for each of them that opens one, with all its hosts and its files. The names of the servers differ,
and a certificate whose first host is the first host of another changes nothing behind it. -/
theorem gateway_exact (i : Ingress) (certificates : List Certificate) :
    ∃ places tls,
      let servers : List Gateway.Server := ⟨⟨i.gatewayPort, "http", "http"⟩, ["*"], none⟩ :: tls
      Opened certificates places tls ∧
      (∀ records policies, (⟨i, records, some certificates, policies⟩ : MeshInputs).resources?
        .gateway = some [.ofBody i.gatewayName (.gateway ⟨servers⟩)]) ∧
      (servers.map (·.port.name)).Nodup ∧
      ∀ c host, c.hosts.head? = some host → (∃ b ∈ certificates, b.hosts.head? = some host) →
        i.gatewayResource (certificates ++ [c]) = i.gatewayResource certificates := by
  obtain ⟨places, opened⟩ := exists_opened certificates
  refine ⟨places, _, opened, fun _ _ => rfl, nodup_names_gateway i certificates, ?_⟩
  rintro c host first ⟨b, hb, same⟩
  refine gatewayResource_concat_of_not_opens i fun name opens => opens.fresh b hb ?_
  rw [same, ← first, opens.first]

/-- Certificates without hosts, with the name of the server for plain text, and with a first host
that has been a first host before or only a further one. -/
theorem gateway_exact_contested :
    let certificates : List Certificate :=
      [⟨[], "/0.crt", "/0.key"⟩, ⟨["http", "a.example"], "/1.crt", "/1.key"⟩,
       ⟨["a.example", "b.example"], "/2.crt", "/2.key"⟩, ⟨["a.example"], "/3.crt", "/3.key"⟩,
       ⟨["b.example"], "/4.crt", "/4.key"⟩]
    let late : Certificate := ⟨["b.example", "c.example"], "/5.crt", "/5.key"⟩
    ∃ places tls, Opened certificates places tls ∧ 2 ∈ places ∧ 3 ∉ places ∧ 4 ∈ places ∧
      standard.gatewayResource (certificates ++ [late]) =
        standard.gatewayResource certificates := by
  intro certificates late
  obtain ⟨places, tls, opened, -, -, unchanged⟩ := gateway_exact standard certificates
  refine ⟨places, tls, opened, (opened.place 2).mpr ?_, mt (opened.place 3).mp ?_,
    (opened.place 4).mpr ?_, unchanged late "b.example" rfl (by decide)⟩
  · exact ⟨_, "a.example", rfl, rfl, by decide, by decide⟩
  · rintro ⟨c, name, there, opens⟩
    obtain rfl : certificates[3] = c := Option.some.inj there
    exact opens.fresh certificates[2] (by decide) opens.first
  · exact ⟨_, "b.example", rfl, rfl, by decide, by decide⟩

end Ingress

end MeshControl
