import Mathlib
import MeshControl.Certificate.Discovery
import MeshControl.Proofs.Checks
import MeshControl.Proofs.Collector.Order
import MeshControl.Proofs.Mesh.Ingress
import MeshControl.Proofs.Publisher.Churn
import MeshControl.Proofs.Resource.Written
import MeshControl.Proofs.Table

/-!
# The order in which a directory is enumerated

Certificates are sorted by host, and names of directories that differ in capital letters stand for
one host. So the order of a directory shows in what is found there exactly if there are two such
names, and in the gateway exactly if it is another of them that comes first.

## Main definitions

* `Certificate.completeName?` — the name of a directory that holds a certificate.
* `Certificate.namesFor` — the names that stand for a host, as they are enumerated.
* `Certificate.ofEntries_eq_ok_iff` — what is found in a directory, in terms of the names.
* `Certificate.ofDirectory_of_perm` — what is found when a directory is enumerated anew.
-/

namespace MeshControl

namespace Certificate

/-- The name of an entry that is a directory with a certificate in it, if the name is text. -/
def completeName? (entry : FileName × FileTree) : Option String :=
  if isComplete entry.2 then Utf8.decode? entry.1 else none

/-- The names of the directories for a host, as they are enumerated. -/
def namesFor (host : String) (entries : List (FileName × FileTree)) : List String :=
  (entries.filterMap completeName?).filter (Text.lower · = host)

/-- The certificate in the directory of a given name. -/
def ofName (root name : String) : Certificate where
  hosts := [Text.lower name]
  certPath := s!"{entryPath root name}/{certFile}"
  keyPath := s!"{entryPath root name}/{keyFile}"

/-- The certificates in the directories of given names, in the order of their hosts. -/
def ofNames (root : String) (names : List String) : List Certificate :=
  (names.map (ofName root)).mergeSort hostsLe

/-- A file, or a directory whose name is text. -/
def Usable (entry : FileName × FileTree) : Prop :=
  entry.2.isFile ∨ (Utf8.decode? entry.1).isSome

instance : DecidablePred Usable := fun _ => inferInstanceAs (Decidable (_ ∨ _))

variable {root host : String} {entries entries' : List (FileName × FileTree)}
  {found found' l l' : List Certificate} {taken : List String}

/-! ## What is found -/

theorem ofEntry_eq_ok_iff {entry : FileName × FileTree} {o : Option Certificate} :
    ofEntry root entry = .ok o ↔ Usable entry ∧ o = (completeName? entry).map (ofName root) := by
  obtain ⟨name, tree⟩ := entry
  rw [eq_comm (a := o)]
  cases tree with
  | file text =>
    simp [ofEntry, Usable, completeName?, isComplete, FileTree.isFile, FileTree.entry?]
  | dir inner =>
    cases decoded : Utf8.decode? name with
    | none => simp [ofEntry, Usable, decoded, FileTree.isFile]
    | some text =>
      by_cases complete : isComplete (.dir inner)
      · simp [ofEntry, Usable, completeName?, decoded, complete, FileTree.isFile, ofName]
      · simp [ofEntry, Usable, completeName?, decoded, complete, FileTree.isFile]

theorem mapM_ofEntry_eq_ok_iff {l : List (Option Certificate)} :
    entries.mapM (ofEntry root) = .ok l ↔
      (∀ e ∈ entries, Usable e) ∧ l = entries.map fun e => (completeName? e).map (ofName root) := by
  have one : (fun e o => ofEntry root e = .ok o) =
      fun e o => Usable e ∧ (completeName? e).map (ofName root) = o := by
    funext e o
    rw [ofEntry_eq_ok_iff, eq_comm (a := o)]
  rw [mapM_eq_ok_iff, one, List.forall₂_and_left, ← List.forall₂_map_left_iff,
    List.forall₂_eq_eq_eq, eq_comm (a := l)]

/-- What is found in a directory is made of the names of the complete directories there. -/
theorem ofEntries_eq_ok_iff : ofEntries root entries = .ok found ↔
    (∀ e ∈ entries, Usable e) ∧ found = ofNames root (entries.filterMap completeName?) := by
  have names : (entries.map fun e => (completeName? e).map (ofName root)).filterMap id =
      (entries.filterMap completeName?).map (ofName root) := by
    rw [List.filterMap_map, List.map_filterMap]
    rfl
  rw [ofEntries, bind_eq_ok_iff]
  constructor
  · rintro ⟨l, checked, same⟩
    obtain ⟨usable, rfl⟩ := mapM_ofEntry_eq_ok_iff.mp checked
    rw [names] at same
    exact ⟨usable, (Except.ok.inj same).symm⟩
  · rintro ⟨usable, rfl⟩
    exact ⟨_, mapM_ofEntry_eq_ok_iff.mpr ⟨usable, rfl⟩, by rw [names]; rfl⟩

/-! ## Sorted by host -/

theorem hostsLe_trans (a b c : Certificate) (hab : hostsLe a b) (hbc : hostsLe b c) :
    hostsLe a c :=
  Std.TransCmp.isLE_trans hab hbc

theorem hostsLe_total (a b : Certificate) : hostsLe a b || hostsLe b a :=
  isLE_total a.hosts b.hosts

/-- Neither of two certificates comes before the other if they have the same hosts. -/
theorem hostsLe_and_hostsLe (a b : Certificate) :
    (hostsLe a b && hostsLe b a) = decide (b.hosts = a.hosts) := by
  rw [Bool.eq_iff_iff, Bool.and_eq_true, decide_eq_true_iff]
  constructor
  · rintro ⟨before, after⟩
    exact Std.LawfulEqCmp.compare_eq_iff_eq.mp (Std.OrientedCmp.isLE_antisymm after before)
  · intro same
    simp [hostsLe, same]

theorem entryPath_injective (root : String) : Function.Injective (entryPath root) := by
  intro a b same
  unfold entryPath at same
  split_ifs at same
  · simpa using same
  · simpa [String.ext_iff, toString] using same

theorem ofName_injective (root : String) : Function.Injective (ofName root) := by
  intro a b same
  refine entryPath_injective root ?_
  simpa [ofName, String.ext_iff, toString] using congrArg certPath same

theorem gatewayResource_eq_iff (i : Ingress) :
    i.gatewayResource l = i.gatewayResource l' ↔
      firstPerName ["http"] l = firstPerName ["http"] l' := by
  have injective : Function.Injective fun c : String × Certificate => c.2.server c.1 := by
    rintro ⟨name, hosts, certPath, keyPath⟩ ⟨name', hosts', certPath', keyPath'⟩ same
    simp_all [server]
  simp only [Ingress.gatewayResource, Resource.ofBody_inj, Resource.Body.gateway.injEq,
    Ingress.gateway, Gateway.mk.injEq, List.cons.injEq, true_and, injective.list_map.eq_iff]

/-- Certificates with one host each, in the order of the hosts. -/
structure Listed (l : List Certificate) : Prop where
  host : ∀ c ∈ l, ∃ host, c.hosts = [host]
  sorted : l.Pairwise fun a b => hostsLe a b

namespace Listed

theorem increasing (h : Listed l) (taken : List String) :
    (firstPerName taken l).Pairwise fun x y => compare x.2.hosts y.2.hosts = .lt := by
  have within := sublist_firstPerName taken l
  have sorted := List.pairwise_map.mp (h.sorted.sublist within)
  have distinct := List.pairwise_map.mp (nodup_names_firstPerName taken l)
  have hosts : ∀ x ∈ firstPerName taken l, x.2.hosts = [x.1] := by
    intro x hx
    obtain ⟨host, same⟩ := h.host x.2 (within.subset (List.mem_map_of_mem hx))
    have first := (of_mem_firstPerName hx).1
    rw [same, List.head?_cons, Option.some.injEq] at first
    rw [same, first]
  refine (sorted.and distinct).imp_of_mem fun {x y} hx hy h => ?_
  refine (Ordering.isLE_iff_eq_lt_or_eq_eq.mp h.1).resolve_right fun same => h.2 ?_
  have equal := Std.LawfulEqCmp.compare_eq_iff_eq.mp same
  rw [hosts x hx, hosts y hy] at equal
  exact List.singleton_injective equal

/-- The same certificates are first if and only if they are the first for every name. -/
theorem firstPerName_eq_iff (h : Listed l) (h' : Listed l') :
    firstPerName taken l = firstPerName taken l' ↔ ∀ name, name ∉ taken →
      l.find? (·.hosts.head? = some name) = l'.find? (·.hosts.head? = some name) := by
  constructor
  · intro same name free
    refine Option.ext fun c => ?_
    have member : (name, c) ∈ firstPerName taken l ↔ (name, c) ∈ firstPerName taken l' := by
      rw [same]
    simpa [mem_firstPerName_iff, free] using member
  · intro same
    refine eq_of_increasing (·.2.hosts) (h.increasing taken) (h'.increasing taken) ?_
    rintro ⟨name, c⟩
    rw [mem_firstPerName_iff, mem_firstPerName_iff]
    exact and_congr_right fun free => by rw [same name free]

end Listed

/-! ## Names -/

variable {names names' : List String}

theorem listed_ofNames (root : String) (names : List String) : Listed (ofNames root names) where
  host c hc := by
    obtain ⟨name, -, rfl⟩ := List.mem_map.mp (List.mem_mergeSort.mp hc)
    exact ⟨_, rfl⟩
  sorted := List.pairwise_mergeSort hostsLe_trans hostsLe_total _

/-- The certificates for a host stand in the order of their names. -/
theorem filter_ofNames (root : String) (names : List String) (host : String) :
    (ofNames root names).filter (·.hosts = [host]) =
      (names.filter (Text.lower · = host)).map (ofName root) := by
  rw [ofNames, filter_mergeSort hostsLe_trans hostsLe_total, List.filter_map]
  · congr 1
    exact List.filter_congr fun name _ => by simp [ofName]
  · intro a b ha hb
    rw [decide_eq_true_iff] at ha hb
    simp [hostsLe, ha, hb]

theorem find?_ofNames (root : String) (names : List String) (host : String) :
    (ofNames root names).find? (·.hosts.head? = some host) =
      (names.filter (Text.lower · = host)).head?.map (ofName root) := by
  have only : (ofNames root names).filter (·.hosts.head? = some host) =
      (ofNames root names).filter (·.hosts = [host]) := by
    refine List.filter_congr fun c hc => ?_
    obtain ⟨first, same⟩ := (listed_ofNames root names).host c hc
    simp [same]
  rw [← List.head?_filter, only, filter_ofNames, List.head?_map]

theorem ofNames_eq_iff : ofNames root names = ofNames root names' ↔
    ∀ host, names.filter (Text.lower · = host) = names'.filter (Text.lower · = host) := by
  constructor
  · intro same host
    refine (ofName_injective root).list_map ?_
    rw [← filter_ofNames, same, filter_ofNames]
  · intro same
    refine eq_of_sorted hostsLe_total (listed_ofNames root names).sorted
      (listed_ofNames root names').sorted fun a => ?_
    simp only [hostsLe_and_hostsLe]
    by_cases single : ∃ host, a.hosts = [host]
    · obtain ⟨host, single⟩ := single
      rw [single, filter_ofNames, filter_ofNames, same]
    · have nothing : ∀ names, (ofNames root names).filter (·.hosts = a.hosts) = [] := by
        refine fun names => List.filter_eq_nil_iff.mpr fun c hc equal => single ?_
        obtain ⟨host, only⟩ := (listed_ofNames root names).host c hc
        exact ⟨host, (of_decide_eq_true equal).symm.trans only⟩
      rw [nothing, nothing]

theorem gatewayResource_ofNames_eq_iff (i : Ingress) :
    i.gatewayResource (ofNames root names) = i.gatewayResource (ofNames root names') ↔
      ∀ host, host ≠ "http" → (names.filter (Text.lower · = host)).head? =
        (names'.filter (Text.lower · = host)).head? := by
  rw [gatewayResource_eq_iff, (listed_ofNames _ _).firstPerName_eq_iff (listed_ofNames _ _)]
  simp only [find?_ofNames, List.mem_singleton,
    (Option.map_injective (ofName_injective root)).eq_iff, ne_eq]

/-! ## Enumerated anew -/

theorem namesFor_of_perm (reordered : entries.Perm entries') (host : String) :
    (namesFor host entries).Perm (namesFor host entries') :=
  (reordered.filterMap _).filter _

theorem namesFor_eq_of_perm (reordered : entries.Perm entries')
    (alone : (namesFor host entries).length ≤ 1) :
    namesFor host entries = namesFor host entries' := by
  have names := namesFor_of_perm reordered host
  obtain none | one := Nat.le_one_iff_eq_zero_or_eq_one.mp alone
  · rw [List.length_eq_zero_iff.mp none] at names ⊢
    exact names.nil_eq
  · obtain ⟨name, one⟩ := List.length_eq_one_iff.mp one
    rw [one] at names ⊢
    exact (List.perm_singleton.mp names.symm).symm

/-- A directory in which certificates are found is one in which they are found in any order, and the
certificates are the same. They stand in the same order if and only if the names for every host do,
as they do where no two directories are for one host. The gateway is the same if and only if the
first names are, and then, and only then, it keeps its version in a tick that the sink takes. -/
theorem ofDirectory_of_perm (reordered : entries.Perm entries')
    (located : ofDirectory root (some (.dir entries)) = .ok found) :
    ∃ found', ofDirectory root (some (.dir entries')) = .ok found' ∧ found.Perm found' ∧
      (found = found' ↔ ∀ host, namesFor host entries = namesFor host entries') ∧
      ((∀ host, (namesFor host entries).length ≤ 1) → found = found') ∧
      ∀ i : Ingress,
        (i.gatewayResource found = i.gatewayResource found' ↔
          ∀ host, host ≠ "http" →
            (namesFor host entries).head? = (namesFor host entries').head?) ∧
        ∀ (p : Publisher) records records' policies policies' answer answer',
          let s : Tick := ⟨⟨i, records, some found, policies⟩, answer⟩
          let t : Tick := ⟨⟨i, records', some found', policies'⟩, answer'⟩
          ¬ (p.outcome s).refused →
            (((p.after s).after t).version? .gateway = (p.after s).version? .gateway ↔
              ((p.after s).outcome t).refused ∨
                i.gatewayResource found = i.gatewayResource found') := by
  obtain ⟨usable, rfl⟩ := ofEntries_eq_ok_iff.mp located
  have usable' : ∀ e ∈ entries', Usable e := fun e he => usable e (reordered.mem_iff.mpr he)
  refine ⟨_, ofEntries_eq_ok_iff.mpr ⟨usable', rfl⟩, ?_, ofNames_eq_iff, fun alone => ?_,
    fun i => ⟨gatewayResource_ofNames_eq_iff i, ?_⟩⟩
  · have certificates := (reordered.filterMap completeName?).map (ofName root)
    exact (List.mergeSort_perm _ _).trans (certificates.trans (List.mergeSort_perm _ _).symm)
  · exact ofNames_eq_iff.mpr fun host => namesFor_eq_of_perm reordered (alone host)
  · intro p records records' policies policies' answer answer' s t accepted
    rw [Publisher.version?_after_eq_iff accepted rfl rfl, List.singleton_inj]

/-- Two directories for a host of which one is empty, and two for the name of the server for plain
text. -/
theorem ofDirectory_of_perm_http :
    let complete : FileTree :=
      .dir [(Utf8.encode "tls.crt", .file ""), (Utf8.encode "tls.key", .file "")]
    let entries : List (FileName × FileTree) :=
      [(Utf8.encode "Shop.example", complete), (Utf8.encode "HTTP", complete),
       (Utf8.encode "README", .file ""), (Utf8.encode "http", complete),
       (Utf8.encode "shop.example", .dir [])]
    let inputs (found : List Certificate) : MeshInputs := ⟨.standard, [], some found, []⟩
    ∃ found found', ofDirectory "/certs" (some (.dir entries)) = .ok found ∧
      ofDirectory "/certs" (some (.dir entries.reverse)) = .ok found' ∧ found ≠ found' ∧
      Ingress.standard.gatewayResource found = Ingress.standard.gatewayResource found' ∧
      let p := Publisher.init.after ⟨inputs found, .ok ()⟩
      (p.after ⟨inputs found', .ok ()⟩).version? .gateway = p.version? .gateway := by
  intro complete entries inputs
  obtain ⟨found, located⟩ : ∃ found, ofDirectory "/certs" (some (.dir entries)) = .ok found :=
    ⟨_, ofEntries_eq_ok_iff.mpr ⟨by decide +kernel, rfl⟩⟩
  obtain ⟨found', located', -, same_iff, -, gateways⟩ :=
    ofDirectory_of_perm entries.reverse_perm.symm located
  obtain ⟨gateway_iff, versions⟩ := gateways .standard
  have names : entries.filterMap completeName? = ["Shop.example", "HTTP", "http"] := by
    decide +kernel
  have names' : entries.reverse.filterMap completeName? = ["http", "HTTP", "Shop.example"] := by
    decide +kernel
  have alike :
      Ingress.standard.gatewayResource found = Ingress.standard.gatewayResource found' := by
    refine gateway_iff.mpr fun host other => ?_
    have upper : Text.lower "HTTP" = "http" := by decide
    have lower : Text.lower "http" = "http" := by decide
    simp [namesFor, names, names', upper, lower, other.symm, List.filter_cons]
  refine ⟨found, found', located, located', fun same => ?_, alike, ?_⟩
  · have order := same_iff.mp same "http"
    rw [namesFor, namesFor, names, names'] at order
    revert order
    decide +kernel
  · have taken : ¬ (Publisher.init.outcome ⟨inputs found, .ok ()⟩).refused :=
      Publisher.not_refused rfl
    exact (versions .init [] [] [] [] (.ok ()) (.ok ()) taken).mpr (.inr alike)

/-- Two directories for one host are enough for a gateway of another version. -/
theorem ofDirectory_depends_on_order :
    let complete : FileTree :=
      .dir [(Utf8.encode "tls.crt", .file ""), (Utf8.encode "tls.key", .file "")]
    let upper : FileName × FileTree := (Utf8.encode "Shop.example", complete)
    let lower : FileName × FileTree := (Utf8.encode "shop.example", complete)
    let first : Certificate :=
      ⟨["shop.example"], "/certs/Shop.example/tls.crt", "/certs/Shop.example/tls.key"⟩
    let second : Certificate :=
      ⟨["shop.example"], "/certs/shop.example/tls.crt", "/certs/shop.example/tls.key"⟩
    let inputs (found : List Certificate) : MeshInputs := ⟨.standard, [], some found, []⟩
    let p := Publisher.init.after ⟨inputs [first, second], .ok ()⟩
    [upper, lower].Perm [lower, upper] ∧
      ofDirectory "/certs" (some (.dir [upper, lower])) = .ok [first, second] ∧
      ofDirectory "/certs" (some (.dir [lower, upper])) = .ok [second, first] ∧
      Ingress.standard.gatewayResource [first, second] ≠
        Ingress.standard.gatewayResource [second, first] ∧
      p.version? .gateway = some "1" ∧
      (p.after ⟨inputs [second, first], .ok ()⟩).version? .gateway = some "2" := by
  intro complete upper lower first second inputs p
  have usable : ∀ e ∈ [upper, lower], Usable e := by decide +kernel
  have usable' : ∀ e ∈ [lower, upper], Usable e := by decide +kernel
  have names :
      ([upper, lower].filterMap completeName?).map (ofName "/certs") = [first, second] := by
    decide +kernel
  have names' :
      ([lower, upper].filterMap completeName?).map (ofName "/certs") = [second, first] := by
    decide +kernel
  have sorted : [first, second].Pairwise fun a b => hostsLe a b := by decide +kernel
  have sorted' : [second, first].Pairwise fun a b => hostsLe a b := by decide +kernel
  refine ⟨.swap _ _ _, ofEntries_eq_ok_iff.mpr ⟨usable, ?_⟩,
    ofEntries_eq_ok_iff.mpr ⟨usable', ?_⟩, ?_, ?_, ?_⟩
  · rw [ofNames, names, List.mergeSort_of_pairwise sorted]
  · rw [ofNames, names', List.mergeSort_of_pairwise sorted']
  · decide +kernel
  · decide +kernel
  · decide +kernel

end Certificate

end MeshControl
